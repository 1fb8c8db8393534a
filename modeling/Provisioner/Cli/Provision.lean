import Provisioner.Cli.Job
import Provisioner.Orchestrator

/-!
# Provisioning a service

The command finds the service in the project file, decides which kinds to provision,
checks the workspace, and then makes one resource after the other in pipeline order.

* `Plan.make` decides what is to be done; it only reads files.
* `Plan.provision` does it.  `Plan.provisionKind` is the step of one kind.
-/

namespace Provisioner.Cli

variable {σ κ δ : Type} [Disk δ]

/-- What is to be done for a service: in which directory, and for which kinds. -/
structure Plan where
  root : String
  service : String
  directory : String
  resources : Resources
  deployment? : Option DeploymentSpec
  kinds : List Kind
deriving DecidableEq, Repr

namespace Plan

/-- The kinds of a service that are selected; an empty selection selects all. -/
def select (only kinds : List Kind) : List Kind :=
  kinds.filter fun k => only.isEmpty || only.contains k

/-- The plan for a service of the project that is found. -/
def make (st : Setting) (service : String) (only : List Kind) (disk : δ) :
    Except Failure Plan := do
  let project ← (Project.discover st.environment disk).mapError .project
  let s ← (st.service project service).mapError .project
  let deployment? ← (s.resources.deploymentSpec service).mapError .project
  return ⟨project.root, service, project.servicePath s, s.resources, deployment?,
    select only s.resources.kinds⟩

/-- Prints that something is in place. -/
def printDone (st : Setting) (text : String) : Job σ κ δ Unit :=
  Job.print ("  " ++ st.paint .green "✓" ++ " " ++ text)

/-- Prints a detail below it. -/
def printDetail (st : Setting) (details : List String) : Job σ κ δ Unit :=
  Job.print ("      " ++ " ".intercalate (details.map (st.paint .dimmed)))

/-- The name that was published for a kind, as it is printed. -/
def publishedName (st : Setting) (kind : Kind) : Job σ κ δ String := do
  return st.paint .cyan ((← Job.store).published kind)

/-- Prints a version that was made. -/
def printVersion (st : Setting) (kind : Kind) (version? : Option String) :
    Job σ κ δ Unit := do
  let name ← publishedName st kind
  printDone st (kind.name ++ " " ++ name
    ++ (match version? with
      | some version => " version " ++ version
      | none => ""))

/-- The endpoint for a deployment: the one made before, or else the one in the store. -/
def endpointFor (p : Plan) (made? : Option String) : Job σ κ δ String := do
  match made?.or ((← Job.store).get? Failure.endpointKey) with
  | some endpoint => return endpoint
  | none => throw (.noEndpoint p.service)

/-- Makes an endpoint, and returns its name. -/
def provisionEndpoint (w : World σ κ) (st : Setting) (scope : Scope) (p : Plan)
    (c : Component) : Job σ κ δ String := do
  let record ← Job.perform st (Op.createEndpoint w scope p.directory c)
  printDone st ("endpoint " ++ (← publishedName st .endpoint))
  match record.properties.scoringUri with
  | some uri => printDetail st [uri]
  | none => pure ()
  return (← Job.store).published .endpoint

/-- Makes a deployment. -/
def provisionDeployment (w : World σ κ) (st : Setting) (scope : Scope) (p : Plan)
    (made? : Option String) (d : DeploymentSpec) : Job σ κ δ Unit := do
  let endpoint ← p.endpointFor made?
  let record ← Job.perform st
    (Op.deploy w scope p.directory endpoint d (st.clock .deployment))
  printDone st ("deployment " ++ (← publishedName st .deployment) ++ " → " ++ endpoint)
  match record.properties.environmentId, record.properties.model with
  | some environment, some model => printDetail st [environment, model]
  | _, _ => pure ()

/-- Makes a flow. -/
def provisionFlow (w : World σ κ) (st : Setting) (scope : Scope) (p : Plan) (c : Component) :
    Job σ κ δ Unit := do
  let record ← Job.perform st (Op.createFlow w scope p.directory c (st.clock .flow))
  printDone st ("flow " ++ (← publishedName st .flow))
  match record.portalUrl with
  | some url => printDetail st [url]
  | none => pure ()

/-- The step of a kind.  `made?` is the endpoint that was made before, and the answer the
one that has been made after the step. -/
def provisionKind (w : World σ κ) (st : Setting) (scope : Scope) (p : Plan)
    (made? : Option String) : Kind → Job σ κ δ (Option String)
  | .environment => do
    if let some c := p.resources.environment? then
      let record ← Job.perform st (Op.createEnvironmentVersion w scope p.directory c)
      printVersion st .environment record.name?
    return made?
  | .model => do
    if let some c := p.resources.model? then
      let record ← Job.perform st (Op.createModelVersion w scope p.directory c)
      printVersion st .model record.name?
    return made?
  | .endpoint =>
    match p.resources.endpoint? with
    | some c => some <$> provisionEndpoint w st scope p c
    | none => return made?
  | .deployment => do
    if let some d := p.deployment? then provisionDeployment w st scope p made? d
    return made?
  | .flow => do
    if let some c := p.resources.flow? then provisionFlow w st scope p c
    return made?
  | .workspace => return made?

/-- The steps of several kinds in turn. -/
def provisionKinds (w : World σ κ) (st : Setting) (scope : Scope) (p : Plan) :
    List Kind → Option String → Job σ κ δ Unit
  | [], _ => pure ()
  | kind :: rest, made? => do
    provisionKinds w st scope p rest (← provisionKind w st scope p made? kind)

/-- Carries a plan out in the scope of the options. -/
def provision (w : World σ κ) (st : Setting) (base : Scope) (p : Plan) : Job σ κ δ Unit := do
  let scope ← Job.orExplain st (Scope.resolve (← Job.store) base p.resources.workspace?)
  Job.print ("🚀 Provisioning service: " ++ st.paint .cyan p.service)
  Job.print ("   Workspace: " ++ st.paint .dimmed scope.display)
  Job.print ""
  discard <| Job.perform st (Op.ensureWorkspace w scope)
  printDone st ("workspace " ++ scope.workspace)
  provisionKinds w st scope p p.kinds none
  Job.print ""
  Job.print (st.paint .boldGreen "✓ Provisioning complete")

end Plan

end Provisioner.Cli
