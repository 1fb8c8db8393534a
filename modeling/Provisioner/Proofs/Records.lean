import Provisioner.Project
import Provisioner.Proofs.Json.OpenRecords
import Provisioner.Proofs.Override
import Provisioner.Resource

/-!
# Records come back from JSON

The records that are read from JSON and written to it: resources with their properties, flows,
scopes, and the parts of a project file.

* Scopes, components, deployments and project files come back whatever they hold: `Scope.returns`
  and the theorems of the same name.
* Properties and flows keep the members that they do not know.  Each is an `OpenRecord`, which says
  where the values of its fields are written.
* `Resource.returns_of_decode` is the envelope of a resource around its properties.
* `decode_encode_records` says of all of them together that decoding and encoding lose nothing.
-/

namespace Provisioner

open Json

/-! ## Fields that may be left out -/

section

variable {α ρ : Type} {room : Nat} {f : Json.Field ρ} {r : ρ}

/-- A field that is left out in one case. -/
theorem Json.Writes.unless {r' : ρ} {v : Json} {b : Bool} (hrequired : f.required = false)
    (hleft : b = true → r = r') (hgiven : Returns room (f.read · r) v r') :
    Writes room f r (if b then [] else [(f.name, v)]) r' := by
  cases b with
  | true => exact hleft rfl ▸ .left hrequired
  | false => exact .given hgiven

/-- A field that is left out if there is no value for it. -/
theorem Json.Writes.option {read : Tree → Except Fault α} {encode : α → Json}
    (hreturns : ∀ a, Returns room read (encode a) a) (hne : ∀ a, encode a ≠ .null)
    (set : Option α → ρ) (hrequired : f.required = false) (hnone : set none = r)
    (hread : ∀ t, f.read t r = do return set (← readOptional read t)) (o : Option α) :
    Writes room f r (o.elim [] fun a => [(f.name, encode a)]) (set o) := by
  cases o with
  | none => exact hnone ▸ .left hrequired
  | some a =>
    have hfield : (f.read · r) = fun t => do return set (← readOptional read t) := funext hread
    refine .given ?_
    rw [hfield]
    exact ((hreturns a).optional (hne a)).store set

end

/-! ## Records without other members -/

theorem Scope.returns (s : Scope) : Returns 1 Scope.decode s.encode s :=
  Shape.returns_of_fills (by decide)
    (.cons (.given ((Returns.text 0 "a string" s.subscription).store _))
      (.cons (.given ((Returns.text 0 "a string" s.resourceGroup).store _))
        (.cons (.given ((Returns.text 0 "a string" s.workspace).store _)) .nil)))

namespace Component

theorem returns_template (room : Nat) (t : Template) :
    Returns room decodeTemplate (.str t.text) t :=
  (Returns.text room "a string" t.text).map Template.mk

theorem returns_overrides (overrides : Overrides) :
    Returns 1 decodeOverrides (encodeOverrides overrides) overrides := by
  have hpairs := Returns.pairs (fun t : Template => .str t.text)
    fun e (_ : e ∈ overrides.entries) =>
    returns_template 0 e.2
  have hmap := hpairs.map Overrides.ofList
  rwa [Overrides.ofList_entries] at hmap

theorem returns (c : Component) : Returns 2 decode c.encode c := by
  obtain ⟨name, path, overrides⟩ := c
  have hname := (returns_template 1 name).store fun a => (⟨a, "", .empty⟩ : Component)
  have hpath := (Returns.text 1 "path string" path).store fun a => (⟨name, a, .empty⟩ : Component)
  have hoverrides := (returns_overrides overrides).store fun a => (⟨name, path, a⟩ : Component)
  -- What is left out is what reading starts from.
  have hblank : name.isEmpty = true → blank = ⟨name, "", .empty⟩ := by
    intro h
    obtain ⟨text⟩ := name
    obtain rfl : text = "" := String.isEmpty_iff.1 h
    rfl
  have hempty : overrides.isEmpty = true →
      (⟨name, path, .empty⟩ : Component) = ⟨name, path, overrides⟩ :=
    fun h => congrArg (Component.mk name path) (Overrides.eq_empty_of_isEmpty h).symm
  have h : Returns 2 decode (.obj _) _ := Shape.returns_of_fills (s := shape) (by decide)
    (.cons (.unless rfl hblank hname) (.cons (.given hpath)
      (.cons (.unless rfl hempty hoverrides) .nil)))
  simpa only [encode, List.append_assoc, List.append_nil] using h

end Component

theorem DeploymentSpec.returns (d : DeploymentSpec) : Returns 3 decode d.encode d := by
  obtain ⟨workspace?, environment, model, deployment⟩ := d
  have henvironment := environment.returns.store fun a =>
    (⟨workspace?, a, .blank, .blank⟩ : DeploymentSpec)
  have hmodel := model.returns.store fun a =>
    (⟨workspace?, environment, a, .blank⟩ : DeploymentSpec)
  have hdeployment := deployment.returns.store fun a =>
    (⟨workspace?, environment, model, a⟩ : DeploymentSpec)
  have hrest : Fills 2 shape.fields.tail _ ⟨workspace?, .blank, .blank, .blank⟩ _ :=
    .cons (.given henvironment) (.cons (.given hmodel) (.cons (.given hdeployment) .nil))
  cases workspace? with
  | none => exact Shape.returns_of_fills (s := shape) (by decide) (.cons (.left rfl) hrest)
  | some w =>
    have hworkspace := ((Component.returns_template 2 w).optional nofun).store fun a =>
      (⟨a, .blank, .blank, .blank⟩ : DeploymentSpec)
    exact Shape.returns_of_fills (s := shape) (by decide) (.cons (.given hworkspace) hrest)

namespace Resources

theorem writes_member {f : Json.Field Resources} {r : Resources}
    (set : Option Component → Resources) (hrequired : f.required = false) (hnone : set .none = r)
    (hread : ∀ t, f.read t r = do return set (← readOptional Component.decode t))
    (c? : Option Component) : Writes 2 f r (member f.name c?) (set c?) := by
  have h := Writes.option Component.returns (fun _ => nofun) set hrequired hnone hread c?
  cases c? <;> exact h

theorem returns (r : Resources) : Returns 3 decode r.encode r := by
  obtain ⟨w, e, m, p, d, f⟩ := r
  have hrest : Fills 2 shape.fields.tail
      (member "environment" e ++ (member "model" m ++ (member "endpoint" p
        ++ (member "deployment" d ++ (member "flow" f ++ [])))))
      ⟨w, .none, .none, .none, .none, .none⟩ ⟨w, e, m, p, d, f⟩ :=
    .cons (writes_member (fun c? => ⟨w, c?, .none, .none, .none, .none⟩) rfl rfl (fun _ => rfl) e)
    (.cons (writes_member (fun c? => ⟨w, e, c?, .none, .none, .none⟩) rfl rfl (fun _ => rfl) m)
    (.cons (writes_member (fun c? => ⟨w, e, m, c?, .none, .none⟩) rfl rfl (fun _ => rfl) p)
    (.cons (writes_member (fun c? => ⟨w, e, m, p, c?, .none⟩) rfl rfl (fun _ => rfl) d)
    (.cons (writes_member (fun c? => ⟨w, e, m, p, d, c?⟩) rfl rfl (fun _ => rfl) f) .nil))))
  cases w with
  | none =>
    have h : Returns 3 decode (.obj _) _ :=
      Shape.returns_of_fills (s := shape) (by decide) (.cons (.left rfl) hrest)
    simpa only [encode, List.append_assoc, List.append_nil] using h
  | some w =>
    have hworkspace := ((Component.returns_template 2 w).optional nofun).store fun a =>
      (⟨a, .none, .none, .none, .none, .none⟩ : Resources)
    have h : Returns 3 decode (.obj _) _ :=
      Shape.returns_of_fills (s := shape) (by decide) (.cons (.given hworkspace) hrest)
    simpa only [encode, List.append_assoc, List.append_nil] using h

end Resources

theorem Service.returns (s : Service) : Returns 4 decode s.encode s :=
  Shape.returns_of_fills (by decide)
    (.cons (.given ((Returns.text 3 "path string" s.directory).store _))
      (.cons (.given (s.resources.returns.store _)) .nil))

theorem ProjectFile.returns (p : ProjectFile) : Returns 6 decode p.encode p :=
  Shape.returns_of_fills (by decide)
    (.cons (.given ((Returns.text 5 "a string" p.name).store _))
      (.cons (.given ((Returns.entries Service.encode fun e _ => e.2.returns).store _)) .nil))

/-! ## Envelopes -/

namespace Resource

variable {P : Type} {initial : P} {decodeProperties : Tree → Except Fault P}

theorem writes_member {room : Nat} {f : Json.Field (Resource P)} {r : Resource P}
    (set : Option String → Resource P) (hrequired : f.required = false) (hnone : set none = r)
    (hread : ∀ t, f.read t r = do return set (← text? t)) (o : Option String) :
    Writes room f r (member f.name o) (set o) := by
  have h := Writes.option (Returns.text room "a string") (fun _ => nofun) set hrequired hnone
    hread o
  cases o <;> exact h

theorem returns {room : Nat} {encodeProperties : P → Json} (r : Resource P)
    (h : Returns room decodeProperties (encodeProperties r.properties) r.properties) :
    Returns (room + 1) (shape initial decodeProperties).read (encode encodeProperties r) r := by
  obtain ⟨id?, name?, type?, properties⟩ := r
  have hdistinct : (shape initial decodeProperties).Distinct := by
    show ["id", "name", "type", "properties"].Nodup
    decide
  have hfills : Fills room (shape initial decodeProperties).fields
      (member "id" id? ++ (member "name" name? ++ (member "type" type?
        ++ ([("properties", encodeProperties properties)] ++ []))))
      (shape initial decodeProperties).initial ⟨id?, name?, type?, properties⟩ :=
    .cons (writes_member (fun o => ⟨o, none, none, initial⟩) rfl rfl (fun _ => rfl) id?)
    (.cons (writes_member (fun o => ⟨id?, o, none, initial⟩) rfl rfl (fun _ => rfl) name?)
    (.cons (writes_member (fun o => ⟨id?, name?, o, initial⟩) rfl rfl (fun _ => rfl) type?)
    (.cons (.given (h.store fun p => (⟨id?, name?, type?, p⟩ : Resource P))) .nil)))
  have hreturns := Shape.returns_of_fills hdistinct hfills
  simpa only [encode, List.append_assoc, List.append_nil] using hreturns

/-- A resource that was decoded comes back if its properties keep what they do not know. -/
theorem returns_of_decode {L : OpenRecord P} {room : Nat} {t : Tree} {r : Resource P}
    (ht : t.Fits (room + 2)) (h : (shape L.shape.initial L.decode).read t = .ok r) :
    Returns (room + 2) (shape L.shape.initial L.decode).read (encode L.encode r) r := by
  refine returns r (Shape.read_invariant (fun r =>
    Returns (room + 1) L.decode (L.encode r.properties) r.properties) ?_ ?_ ht h)
  · exact L.returns_initial room
  -- Only the last field touches the properties.
  · intro f hf t ht r r' h hr
    simp only [shape, List.mem_cons, List.not_mem_nil, or_false] at hf
    rcases hf with rfl | rfl | rfl | rfl <;>
      obtain ⟨a, ha, h⟩ := exists_of_bind_eq_ok h <;>
      obtain rfl := Except.ok.inj h
    · exact hr
    · exact hr
    · exact hr
    · exact OpenRecord.returns_of_decode ht ha

end Resource

/-! ## Records that keep other members -/

@[simp] theorem Json.optional_inj {a b : Option String} :
    Json.optional a = Json.optional b ↔ a = b := by
  cases a <;> cases b <;> simp [Json.optional]

theorem Resource.faithful_text : Faithful text? Json.optional :=
  (faithful_readText "a string").readOptional rfl (fun _ => rfl) (fun _ => nofun)

/-- The laws of a container's properties. -/
def ContainerProperties.openRecord : OpenRecord ContainerProperties where
  shape := shape
  keep k v p := { p with extra := p.extra.insert k v }
  known p := [("nextVersion", .optional p.nextVersion),
    ("latestVersion", .optional p.latestVersion), ("description", .optional p.description)]
  extra := extra
  distinct := by decide
  optional := by decide
  known_initial := rfl
  extra_initial := rfl
  stores :=
    .cons Resource.faithful_text.stores
    (.cons Resource.faithful_text.stores
    (.cons Resource.faithful_text.stores .nil))
  known_keep _ _ _ := rfl
  extra_keep _ _ _ := rfl
  ext {p p'} h h' := by
    cases p
    cases p'
    simp_all

/-- The laws of an environment version's properties. -/
def EnvironmentVersionProperties.openRecord : OpenRecord EnvironmentVersionProperties where
  shape := shape
  keep k v p := { p with extra := p.extra.insert k v }
  known p := [("image", .optional p.image), ("description", .optional p.description),
    ("provisioningState", .optional p.provisioningState)]
  extra := extra
  distinct := by decide
  optional := by decide
  known_initial := rfl
  extra_initial := rfl
  stores :=
    .cons Resource.faithful_text.stores
    (.cons Resource.faithful_text.stores
    (.cons Resource.faithful_text.stores .nil))
  known_keep _ _ _ := rfl
  extra_keep _ _ _ := rfl
  ext {p p'} h h' := by
    cases p
    cases p'
    simp_all

/-- The laws of a model version's properties. -/
def ModelVersionProperties.openRecord : OpenRecord ModelVersionProperties where
  shape := shape
  keep k v p := { p with extra := p.extra.insert k v }
  known p := [("modelUri", .optional p.modelUri), ("modelType", .optional p.modelType),
    ("description", .optional p.description), ("provisioningState", .optional p.provisioningState)]
  extra := extra
  distinct := by decide
  optional := by decide
  known_initial := rfl
  extra_initial := rfl
  stores :=
    .cons Resource.faithful_text.stores
    (.cons Resource.faithful_text.stores
    (.cons Resource.faithful_text.stores
    (.cons Resource.faithful_text.stores .nil)))
  known_keep _ _ _ := rfl
  extra_keep _ _ _ := rfl
  ext {p p'} h h' := by
    cases p
    cases p'
    simp_all

namespace EndpointProperties

theorem faithful_traffic : Faithful (readOptional (readMap readUInt32)) encodeTraffic :=
  faithful_readUInt32.readMap.readOptional rfl (fun _ => rfl) (fun _ => nofun)

@[simp] theorem encodeTraffic_inj {a b : Option (KeyMap Nat)} :
    encodeTraffic a = encodeTraffic b ↔ a = b := by
  refine ⟨fun h => ?_, congrArg _⟩
  have hint : ∀ m n : Nat, Json.int m = Json.int n → m = n :=
    fun _ _ h => Int.ofNat_inj.1 (Number.whole.inj (Json.num.inj h))
  cases a <;> cases b
  · rfl
  · cases h
  · cases h
  · exact congrArg some (KeyMap.eq_of_map_entries hint (Json.obj.inj h))

end EndpointProperties

/-- The laws of an endpoint's properties. -/
def EndpointProperties.openRecord : OpenRecord EndpointProperties where
  shape := shape
  keep k v p := { p with extra := p.extra.insert k v }
  known p := [("authMode", .optional p.authMode), ("scoringUri", .optional p.scoringUri),
    ("swaggerUri", .optional p.swaggerUri), ("provisioningState", .optional p.provisioningState),
    ("traffic", encodeTraffic p.traffic)]
  extra := extra
  distinct := by decide
  optional := by decide
  known_initial := rfl
  extra_initial := rfl
  stores :=
    .cons Resource.faithful_text.stores
    (.cons Resource.faithful_text.stores
    (.cons Resource.faithful_text.stores
    (.cons Resource.faithful_text.stores
    (.cons faithful_traffic.stores .nil))))
  known_keep _ _ _ := rfl
  extra_keep _ _ _ := rfl
  ext {p p'} h h' := by
    cases p
    cases p'
    simp_all

/-- The laws of a deployment's properties. -/
def DeploymentProperties.openRecord : OpenRecord DeploymentProperties where
  shape := shape
  keep k v p := { p with extra := p.extra.insert k v }
  known p := [("model", .optional p.model), ("environmentId", .optional p.environmentId),
    ("instanceType", .optional p.instanceType),
    ("endpointComputeType", .optional p.endpointComputeType),
    ("provisioningState", .optional p.provisioningState)]
  extra := extra
  distinct := by decide
  optional := by decide
  known_initial := rfl
  extra_initial := rfl
  stores :=
    .cons Resource.faithful_text.stores
    (.cons Resource.faithful_text.stores
    (.cons Resource.faithful_text.stores
    (.cons Resource.faithful_text.stores
    (.cons Resource.faithful_text.stores .nil))))
  known_keep _ _ _ := rfl
  extra_keep _ _ _ := rfl
  ext {p p'} h h' := by
    cases p
    cases p'
    simp_all

/-- The laws of a workspace's properties. -/
def WorkspaceProperties.openRecord : OpenRecord WorkspaceProperties where
  shape := shape
  keep k v p := { p with extra := p.extra.insert k v }
  known p := [("friendlyName", .optional p.friendlyName),
    ("discoveryUrl", .optional p.discoveryUrl),
    ("provisioningState", .optional p.provisioningState)]
  extra := extra
  distinct := by decide
  optional := by decide
  known_initial := rfl
  extra_initial := rfl
  stores :=
    .cons Resource.faithful_text.stores
    (.cons Resource.faithful_text.stores
    (.cons Resource.faithful_text.stores .nil))
  known_keep _ _ _ := rfl
  extra_keep _ _ _ := rfl
  ext {p p'} h h' := by
    cases p
    cases p'
    simp_all

namespace Flow

theorem faithful_tags : Faithful (readOptional (readMap (readText "a string"))) encodeTags :=
  (faithful_readText "a string").readMap.readOptional rfl (fun _ => rfl) (fun _ => nofun)

@[simp] theorem encodeTags_inj {a b : Option (KeyMap String)} :
    encodeTags a = encodeTags b ↔ a = b := by
  refine ⟨fun h => ?_, congrArg _⟩
  cases a <;> cases b
  · rfl
  · cases h
  · cases h
  · exact congrArg some (KeyMap.eq_of_map_entries (fun _ _ => Json.str.inj) (Json.obj.inj h))

end Flow

/-- The laws of a flow. -/
def Flow.openRecord : OpenRecord Flow where
  shape := shape
  keep k v f := { f with extra := f.extra.insert k v }
  known f := [("name", .optional f.name), ("display_name", .optional f.displayName),
    ("type", .optional f.type), ("path", .optional f.path), ("code", .optional f.code),
    ("description", .optional f.description), ("tags", encodeTags f.tags),
    ("created_date", .optional f.createdDate), ("flow_portal_url", .optional f.portalUrl)]
  extra := extra
  distinct := by decide
  optional := by decide
  known_initial := rfl
  extra_initial := rfl
  stores :=
    .cons Resource.faithful_text.stores
    (.cons Resource.faithful_text.stores
    (.cons Resource.faithful_text.stores
    (.cons Resource.faithful_text.stores
    (.cons Resource.faithful_text.stores
    (.cons Resource.faithful_text.stores
    (.cons faithful_tags.stores
    (.cons Resource.faithful_text.stores
    (.cons Resource.faithful_text.stores .nil))))))))
  known_keep _ _ _ := rfl
  extra_keep _ _ _ := rfl
  ext {f f'} h h' := by
    cases f
    cases f'
    simp_all

/-! ## All records -/

/-- A record type with its reader and its writer. -/
structure RecordType where
  Record : Type
  decode : Tree → Except Fault Record
  encode : Record → Json

/-- A record type that keeps the members of unknown names, with the names that it knows. -/
structure OpenRecordType extends RecordType where
  names : List String

/-- The record types that are read from JSON and written to it. -/
def recordTypes : List RecordType := [
  ⟨Container, Container.decode, Container.encode⟩,
  ⟨EnvironmentVersion, EnvironmentVersion.decode, EnvironmentVersion.encode⟩,
  ⟨ModelVersion, ModelVersion.decode, ModelVersion.encode⟩,
  ⟨Endpoint, Endpoint.decode, Endpoint.encode⟩,
  ⟨Deployment, Deployment.decode, Deployment.encode⟩,
  ⟨Workspace, Workspace.decode, Workspace.encode⟩,
  ⟨Flow, Flow.decode, Flow.encode⟩,
  ⟨Scope, Scope.decode, Scope.encode⟩,
  ⟨Component, Component.decode, Component.encode⟩,
  ⟨DeploymentSpec, DeploymentSpec.decode, DeploymentSpec.encode⟩,
  ⟨Resources, Resources.decode, Resources.encode⟩,
  ⟨Service, Service.decode, Service.encode⟩,
  ⟨ProjectFile, ProjectFile.decode, ProjectFile.encode⟩]

/-- The properties of resources, and prompt flows. -/
def openRecordTypes : List OpenRecordType := [
  ⟨⟨ContainerProperties, ContainerProperties.decode, ContainerProperties.encode⟩,
    ["nextVersion", "latestVersion", "description"]⟩,
  ⟨⟨EnvironmentVersionProperties, EnvironmentVersionProperties.decode,
    EnvironmentVersionProperties.encode⟩, ["image", "description", "provisioningState"]⟩,
  ⟨⟨ModelVersionProperties, ModelVersionProperties.decode, ModelVersionProperties.encode⟩,
    ["modelUri", "modelType", "description", "provisioningState"]⟩,
  ⟨⟨EndpointProperties, EndpointProperties.decode, EndpointProperties.encode⟩,
    ["authMode", "scoringUri", "swaggerUri", "provisioningState", "traffic"]⟩,
  ⟨⟨DeploymentProperties, DeploymentProperties.decode, DeploymentProperties.encode⟩,
    ["model", "environmentId", "instanceType", "endpointComputeType", "provisioningState"]⟩,
  ⟨⟨WorkspaceProperties, WorkspaceProperties.decode, WorkspaceProperties.encode⟩,
    ["friendlyName", "discoveryUrl", "provisioningState"]⟩,
  ⟨⟨Flow, Flow.decode, Flow.encode⟩,
    ["name", "display_name", "type", "path", "code", "description", "tags", "created_date",
      "flow_portal_url"]⟩]

namespace RecordType

/-- Whatever is decoded comes back from its encoding. -/
def Recovers (T : RecordType) : Prop :=
  ∀ t r, t.Fits 127 → T.decode t = .ok r → Returns 127 T.decode (T.encode r) r

/-- Records that come back whether they were decoded or not. -/
theorem recovers_of_returns {T : RecordType} {room : Nat} (hroom : room ≤ 127)
    (h : ∀ r, Returns room T.decode (T.encode r) r) : T.Recovers :=
  fun _ r _ _ => (h r).mono hroom

theorem recovers_of_mem : ∀ T ∈ recordTypes, T.Recovers := by
  simp only [recordTypes, List.forall_mem_cons]
  exact ⟨
    fun _ _ => Resource.returns_of_decode (L := ContainerProperties.openRecord),
    fun _ _ => Resource.returns_of_decode (L := EnvironmentVersionProperties.openRecord),
    fun _ _ => Resource.returns_of_decode (L := ModelVersionProperties.openRecord),
    fun _ _ => Resource.returns_of_decode (L := EndpointProperties.openRecord),
    fun _ _ => Resource.returns_of_decode (L := DeploymentProperties.openRecord),
    fun _ _ => Resource.returns_of_decode (L := WorkspaceProperties.openRecord),
    fun _ _ => OpenRecord.returns_of_decode (L := Flow.openRecord),
    recovers_of_returns (by decide) Scope.returns,
    recovers_of_returns (by decide) Component.returns,
    recovers_of_returns (by decide) DeploymentSpec.returns,
    recovers_of_returns (by decide) Resources.returns,
    recovers_of_returns (by decide) Service.returns,
    recovers_of_returns (by decide) ProjectFile.returns,
    List.forall_mem_nil _⟩

/-- A record from a text whose numbers are integers is decoded again after it was written. -/
theorem Recovers.decodeText_render {T : RecordType} (hT : T.Recovers) {text : String}
    {r : T.Record} (hnumbers : (Document.ofText text).root.HasIntegers)
    (h : decodeText T.decode text = .ok r) : decodeText T.decode (T.encode r).render = .ok r :=
  (hT _ r (fits_ofText hnumbers) (decode_of_decodeText h)).decodeText

end RecordType

theorem OpenRecordType.keeps_of_mem : ∀ T ∈ openRecordTypes, ∀ t r, T.decode t = .ok r →
    ∃ ms, t.Lists ms ∧ KeepsMembers T.names ms (T.encode r) := by
  simp only [openRecordTypes, List.forall_mem_cons]
  exact ⟨
    fun _ _ => OpenRecord.keeps_of_decode (L := ContainerProperties.openRecord),
    fun _ _ => OpenRecord.keeps_of_decode (L := EnvironmentVersionProperties.openRecord),
    fun _ _ => OpenRecord.keeps_of_decode (L := ModelVersionProperties.openRecord),
    fun _ _ => OpenRecord.keeps_of_decode (L := EndpointProperties.openRecord),
    fun _ _ => OpenRecord.keeps_of_decode (L := DeploymentProperties.openRecord),
    fun _ _ => OpenRecord.keeps_of_decode (L := WorkspaceProperties.openRecord),
    fun _ _ => OpenRecord.keeps_of_decode (L := Flow.openRecord),
    List.forall_mem_nil _⟩

/-- Every record that is decoded from a text whose numbers are integers comes back when it is
written and decoded again; and of an object that is decoded into the properties of a resource or
into a flow nothing is lost, and no name is written twice. -/
theorem decode_encode_records :
    (∀ T ∈ recordTypes, ∀ (text : String) (r : T.Record),
      (Document.ofText text).root.HasIntegers → decodeText T.decode text = .ok r →
        decodeText T.decode (T.encode r).render = .ok r) ∧
    ∀ T ∈ openRecordTypes, ∀ (t : Tree) (r : T.Record), T.decode t = .ok r →
      ∃ ms, t.Lists ms ∧ KeepsMembers T.names ms (T.encode r) :=
  ⟨fun T hT _ _ hnumbers h => (RecordType.recovers_of_mem T hT).decodeText_render hnumbers h,
    OpenRecordType.keeps_of_mem⟩

/-- A flow with a member of an unknown name that comes twice, and with the largest integer. -/
theorem decode_encode_records_flow :
    let text := "\x7b\"name\":\"f\",\"x\":1,\"tags\":\x7b\"a\":\"b\"\x7d,"
      ++ "\"x\":\x7b\"z\":-2,\"y\":[18446744073709551615]\x7d\x7d"
    let written := "\x7b\"name\":\"f\",\"display_name\":null,\"type\":null,\"path\":null,"
      ++ "\"code\":null,\"description\":null,\"tags\":\x7b\"a\":\"b\"\x7d,\"created_date\":null,"
      ++ "\"flow_portal_url\":null,\"x\":\x7b\"y\":[18446744073709551615],\"z\":-2\x7d\x7d"
    ∃ flow ms, decodeText Flow.decode text = .ok flow ∧ flow.encode.render = written ∧
      decodeText Flow.decode written = .ok flow ∧
      (Document.ofText text).root.Lists ms ∧ KeepsMembers Flow.openRecord.names ms flow.encode := by
  intro text written
  have hnumbers : (Document.ofText text).root.numbers =
      [.whole 1, .whole (-2), .whole 18446744073709551615] := by
    decide +kernel
  have hintegers : (Document.ofText text).root.HasIntegers := by
    unfold Tree.HasIntegers
    rw [hnumbers]
    decide
  have hencoded : (decodeText Flow.decode text).map (fun flow => flow.encode.render) =
      .ok written := by
    decide +kernel
  obtain ⟨flow, hflow, hrender⟩ := exists_of_map_eq_ok hencoded
  obtain ⟨hreturns, hkeeps⟩ := decode_encode_records
  have hagain := hreturns ⟨Flow, Flow.decode, Flow.encode⟩ (List.mem_of_getElem? (i := 6) rfl)
    text flow hintegers hflow
  obtain ⟨ms, hlists, hms⟩ := hkeeps _ (List.mem_of_getElem? (i := 6) rfl)
    (Document.ofText text).root flow (decode_of_decodeText hflow)
  exact ⟨flow, ms, hflow, hrender, hrender ▸ hagain, hlists, hms⟩

end Provisioner
