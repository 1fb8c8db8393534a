import Provisioner.ControlPlane
import Provisioner.Json.Document
import Provisioner.Program
import Provisioner.Version

/-!
# Clouds in memory

A `Cloud` holds a record for every resource that exists.  It can stand in for the real
control plane when operations are rehearsed.

* `Cloud.answer` answers questions, and `Cloud.put` and `Cloud.remove` change the
  records.
* `Cloud.provision` is what a run of the ML client does to a cloud.
* `Cloud.answer_put_self` and `Cloud.answer_put_ne` say how the two go together.
-/

namespace Provisioner

open ControlPlane (Query Answer)

/-- The records of the resources that exist. -/
structure Cloud where
  record? : (q : Query) → Option q.Record

namespace Cloud

/-- The cloud in which nothing exists. -/
def empty : Cloud := ⟨fun _ => none⟩

/-- The answer to a question. -/
def answer (c : Cloud) (scope : Scope) (q : Query) : Answer q :=
  match c.record? q with
  | some r => .ok r
  | none => .error (.notFound ("/".intercalate (q.details scope)))

/-- The cloud in which the answer to one question is another. -/
def set (c : Cloud) (q : Query) (r? : Option q.Record) : Cloud :=
  ⟨fun other => if h : q = other then h ▸ r? else c.record? other⟩

/-- The cloud with a record. -/
def put (c : Cloud) (q : Query) (r : q.Record) : Cloud := c.set q (some r)

/-- The cloud without a record. -/
def remove (c : Cloud) (q : Query) : Cloud := c.set q none

theorem answer_put_self (c : Cloud) (scope : Scope) (q : Query) (r : q.Record) :
    (c.put q r).answer scope q = .ok r := by
  simp [answer, put, set]

theorem answer_put_ne {q other : Query} (h : q ≠ other) (c : Cloud) (scope : Scope)
    (r : q.Record) : (c.put q r).answer scope other = c.answer scope other := by
  simp [answer, put, set, h]

/-- The version after one that is a number of 32 bits. -/
def successor? (version : String) : Option String :=
  let digits := match version.toList with
    | '+' :: rest => rest
    | cs => cs
  let n := Json.digitsValue digits
  if digits.isEmpty ∨ !digits.all Char.isDigit ∨ 0x100000000 ≤ n then none
  else some (toString (n + 1))

/-- A container whose latest version is the given one; `next` is the version after one
that is no number. -/
def container (name version next : String) : Container :=
  Resource.named name { ContainerProperties.blank with
    latestVersion := some version
    nextVersion := some ((successor? version).getD next) }

/-- What a run of the ML client does: the resource that its arguments describe exists
from then on. -/
def provision (args : Arguments) (c : Cloud) : Cloud :=
  let text (field : String) : String := (args.fields.get? field).getD ""
  let name := text "name"
  match args.after? "-t" with
  | some "environment" =>
    let version := text "version"
    (c.put (.container .environment name) (container name version "1")).put
      (.environmentVersion name version) (Resource.named version .blank)
  | some "model" =>
    let known? : Option Container := c.record? (.container .model name)
    let version := (known?.bind (·.properties.nextVersion)).getD Version.initial
    (c.put (.container .model name) (container name version "2")).put
      (.modelVersion name version) (Resource.named version { ModelVersionProperties.blank with
        modelUri := some ("azureml://models/" ++ name) })
  | some "online-endpoint" => c.put (.endpoint name) (Resource.named name .blank)
  | some "online-deployment" =>
    c.put (.deployment (text "endpoint_name") name)
      (Resource.named name { DeploymentProperties.blank with
        model := args.fields.get? "model"
        environmentId := args.fields.get? "environment" })
  | _ => c

end Cloud

end Provisioner
