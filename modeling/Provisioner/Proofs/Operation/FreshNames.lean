import Provisioner.Proofs.Json.Scalars
import Provisioner.Proofs.Operation.Effects

/-!
# Names made afresh

Flows and deployments are named after the second at which they are prepared.  The time stands behind
the last dash of such a name.  What stands before it can hold dashes and digits of its own, and can
even end like another time, but the digits of a time hold no dash: so the last one always tells the
two parts from each other.

* `eq_of_append_dash`: a text is cut in one way at its last dash.
* `Flow.uniqueName_eq_iff` and `Deployment.freshName_eq_iff` compare the names themselves, and
  `Flow.name_eq_iff_of_prepare` and `Deployment.name_eq_iff_of_prepare` those of prepared steps.
* `names_apart` is all of it.
-/

namespace Provisioner

open Json (isDigit_toDigits digitsValue_toDigits)

/-! ## Times as text -/

theorem dash_notMem_toDigits (n : Nat) : '-' ∉ Nat.toDigits 10 n :=
  fun h => absurd (isDigit_toDigits '-' h) (by decide)

theorem toDigits_injective : Function.Injective (Nat.toDigits 10) :=
  Function.LeftInverse.injective digitsValue_toDigits

theorem toList_toString_natCast (n : Nat) : (toString (n : Int)).toList = Nat.toDigits 10 n :=
  Nat.toList_repr

theorem toList_toString_negSucc (n : Nat) :
    (toString (Int.negSucc n)).toList = '-' :: Nat.toDigits 10 (n + 1) := by
  have htext : toString (Int.negSucc n) = "-" ++ (n + 1).repr := rfl
  rw [htext, String.toList_append, Nat.toList_repr]
  rfl

/-- Different times have different texts; those before the first second begin with a dash. -/
theorem toString_time_injective : Function.Injective (toString : Int → String) := by
  intro s t h
  have hchars : (toString s).toList = (toString t).toList := congrArg String.toList h
  have hmixed (m n : Nat) : Nat.toDigits 10 m ≠ '-' :: Nat.toDigits 10 (n + 1) :=
    fun heq => dash_notMem_toDigits m (heq ▸ List.mem_cons_self)
  cases s with
  | ofNat m =>
    have hm : (toString (Int.ofNat m)).toList = Nat.toDigits 10 m := toList_toString_natCast m
    rw [hm] at hchars
    cases t with
    | ofNat n =>
      exact congrArg Int.ofNat (toDigits_injective (hchars.trans (toList_toString_natCast n)))
    | negSucc n => exact absurd (hchars.trans (toList_toString_negSucc n)) (hmixed m n)
  | negSucc m =>
    rw [toList_toString_negSucc] at hchars
    cases t with
    | ofNat n => exact absurd (hchars.trans (toList_toString_natCast n)).symm (hmixed n m)
    | negSucc n =>
      rw [toList_toString_negSucc] at hchars
      have hdigits := toDigits_injective (List.cons.inj hchars).2
      rw [Nat.succ.inj hdigits]

/-! ## The last dash -/

theorem eq_nil_of_dash_cons {between digits digits' : List Char} (hdigits : '-' ∉ digits)
    (h : '-' :: digits = between ++ '-' :: digits') : between = [] ∧ digits = digits' := by
  cases between with
  | nil => exact ⟨rfl, (List.cons.inj h).2⟩
  | cons c between =>
    have hmem : '-' ∈ digits := by
      rw [(List.cons.inj h).2]
      exact List.mem_append_right between List.mem_cons_self
    exact absurd hmem hdigits

theorem eq_of_append_dash {cs cs' digits digits' : List Char} (hdigits : '-' ∉ digits)
    (hdigits' : '-' ∉ digits') (h : cs ++ '-' :: digits = cs' ++ '-' :: digits') :
    cs = cs' ∧ digits = digits' := by
  rcases List.append_eq_append_iff.1 h with ⟨between, rfl, hrest⟩ | ⟨between, rfl, hrest⟩
  · obtain ⟨rfl, rfl⟩ := eq_nil_of_dash_cons hdigits hrest
    exact ⟨(List.append_nil cs).symm, rfl⟩
  · obtain ⟨rfl, rfl⟩ := eq_nil_of_dash_cons hdigits' hrest
    exact ⟨List.append_nil cs', rfl⟩

/-! ## Names -/

theorem Flow.toList_uniqueName (name : String) (n : Nat) :
    (uniqueName name n).toList = name.toList ++ '-' :: Nat.toDigits 10 n := by
  rw [uniqueName, String.toList_append, String.toList_append, toList_toString_natCast,
    List.append_assoc]
  rfl

theorem Flow.uniqueName_eq_iff {name name' : String} {now now' : Int} (hnow : 0 ≤ now)
    (hnow' : 0 ≤ now') :
    uniqueName name now = uniqueName name' now' ↔ name = name' ∧ now = now' := by
  constructor
  · intro h
    obtain ⟨n, rfl⟩ := Int.eq_ofNat_of_zero_le hnow
    obtain ⟨n', rfl⟩ := Int.eq_ofNat_of_zero_le hnow'
    have hchars := congrArg String.toList h
    rw [toList_uniqueName, toList_uniqueName] at hchars
    obtain ⟨hname, hdigits⟩ :=
      eq_of_append_dash (dash_notMem_toDigits n) (dash_notMem_toDigits n') hchars
    exact ⟨String.toList_inj.1 hname, congrArg Nat.cast (toDigits_injective hdigits)⟩
  · rintro ⟨rfl, rfl⟩
    rfl

/-- Before the first second, a name can pass for another one with a dash at its end. -/
example : Flow.uniqueName "chat" (-5) = Flow.uniqueName "chat-" 5 := by decide

theorem Deployment.freshName_eq_iff {start : String} {now now' : Int} :
    freshName start now = freshName start now' ↔ now = now' := by
  rw [freshName, freshName, String.append_right_inj, toString_time_injective.eq_iff]

/-! ## Prepared steps -/

variable {δ : Type} [Disk δ] {store store' : Store} {disk disk' : δ} {service service' : String}
  {now now' : Int}

theorem Flow.name_eq_iff_of_prepare {c c' : Component} {p p' : Prepared} (hnow : 0 ≤ now)
    (hnow' : 0 ≤ now') (h : prepare store disk service c now = .ok p)
    (h' : prepare store' disk' service' c' now' = .ok p') :
    p.name = p'.name ↔
      c.name.resolve store.lookup = c'.name.resolve store'.lookup ∧ now = now' := by
  obtain ⟨name, hname, hp⟩ := resolve_of_prepare h
  obtain ⟨name', hname', hp'⟩ := resolve_of_prepare h'
  rw [hp, hp', hname, hname', uniqueName_eq_iff hnow hnow', Except.ok.injEq]

theorem Deployment.name_eq_iff_of_prepare {endpoint endpoint' : String} {d d' : DeploymentSpec}
    {p p' : Input} (h : prepare store disk service endpoint d now = .ok p)
    (h' : prepare store' disk' service' endpoint' d' now' = .ok p') :
    p.name = p'.name ↔ now = now' := by
  rw [(resolve_of_prepare h).1, (resolve_of_prepare h').1, freshName_eq_iff]

/-- Names that are made at a time are equal only if they were made from the same name, and at the
same time.  So two flows share a name only if their templates come to the same name at the same
second, and two deployments only if they are prepared at the same second, whatever else differs. -/
theorem names_apart :
    (∀ {name name' : String} {now now' : Int}, 0 ≤ now → 0 ≤ now' →
      (Flow.uniqueName name now = Flow.uniqueName name' now' ↔ name = name' ∧ now = now')) ∧
    (∀ {start : String} {now now' : Int},
      Deployment.freshName start now = Deployment.freshName start now' ↔ now = now') ∧
    (∀ {store store' : Store} {disk disk' : δ} {service service' : String} {c c' : Component}
      {now now' : Int} {p p' : Prepared}, 0 ≤ now → 0 ≤ now' →
      Flow.prepare store disk service c now = .ok p →
      Flow.prepare store' disk' service' c' now' = .ok p' →
      (p.name = p'.name ↔
        c.name.resolve store.lookup = c'.name.resolve store'.lookup ∧ now = now')) ∧
    (∀ {store store' : Store} {disk disk' : δ} {service service' endpoint endpoint' : String}
      {d d' : DeploymentSpec} {now now' : Int} {p p' : Deployment.Input},
      Deployment.prepare store disk service endpoint d now = .ok p →
      Deployment.prepare store' disk' service' endpoint' d' now' = .ok p' →
      (p.name = p'.name ↔ now = now')) :=
  ⟨Flow.uniqueName_eq_iff, Deployment.freshName_eq_iff, Flow.name_eq_iff_of_prepare,
    Deployment.name_eq_iff_of_prepare⟩

/-- Flows whose names run together but for the place of the last dash, and deployments that are
prepared one second after the other. -/
theorem names_apart_dashedNames :
    let store (name : String) : Store := .memory ⟨KeyMap.ofList [("NAME", name)]⟩
    let flow (name : String) (now : Int) :=
      Flow.prepare (store name) Course.definitionTree "svc" Course.thing now
    let deployment (now : Int) :=
      Deployment.prepare (store "chat") Course.definitionTree "svc" "ep"
        ⟨none, Course.thing, Course.thing, Course.thing⟩ now
    Flow.uniqueName "chat" 57 ≠ Flow.uniqueName "chat-5" 7 ∧
      Deployment.freshName "fleetml" 7 ≠ Deployment.freshName "fleetml" 8 ∧
      (∃ p p', flow "chat" 57 = .ok p ∧ flow "chat-5" 7 = .ok p' ∧ p.name ≠ p'.name) ∧
      ∃ p p', deployment 7 = .ok p ∧ deployment 8 = .ok p' ∧ p.name ≠ p'.name := by
  intro store flow deployment
  obtain ⟨hunique, hfresh, hflow, hdeployment⟩ := names_apart (δ := FileTree)
  have hchat : flow "chat" 57 = .ok ⟨"chat-57", "svc/thing.yml", []⟩ := by decide +kernel
  have hdashed : flow "chat-5" 7 = .ok ⟨"chat-5-7", "svc/thing.yml", []⟩ := by decide +kernel
  have hseventh : deployment 7 = .ok ⟨"fleetml-7", "ep", "chat", "chat", "svc/thing.yml", []⟩ := by
    decide +kernel
  have heighth : deployment 8 = .ok ⟨"fleetml-8", "ep", "chat", "chat", "svc/thing.yml", []⟩ := by
    decide +kernel
  have htimes : ¬ (57 : Int) = 7 := by decide
  refine ⟨fun h => htimes ((hunique (by decide) (by decide)).1 h).2,
    fun h => absurd (hfresh.1 h) (by decide), ⟨_, _, hchat, hdashed, fun h => ?_⟩,
    ⟨_, _, hseventh, heighth, fun h => ?_⟩⟩
  · exact htimes ((hflow (by decide) (by decide) hchat hdashed).1 h).2
  · exact absurd ((hdeployment hseventh heighth).1 h) (by decide)

end Provisioner
