import Provisioner.Proofs.Azure.Token

/-!
# The last minutes of a token

A token is no longer used in the five minutes before its end.  That time is found by a subtraction
on 64 bits, and no one looks first whether there are five minutes to take away.  Where there are
not, the subtraction overflows and the program panics.  The token is kept all the same, so the
program panics again whenever a token is asked for.

* `CommandLine.token_of_not_isBounded` is what a command line does that keeps such a token.
* `AccessToken.fresh_by_numbers_iff` compares freshness with the numbers themselves, and
  `not_forall_fresh_by_numbers` is a token that `az` can hand out for which they differ.
-/

namespace Provisioner.Azure

variable {σ : Type}

/-- A command line panics if it keeps a token that ends within the first five minutes that there
are.  It reads the clock before, and keeps the token. -/
theorem CommandLine.token_of_not_isBounded {c : CommandLine} {t : AccessToken}
    (hkept : c.cached? = some t) (hends : ¬ t.IsBounded) (m : Machine σ) (s : σ) :
    c.token m s = (.panicked, c, (m.now s).2) :=
  Turn.token_eq (.panicked rfl (fresh?_eq_none_iff.2 ⟨t, hkept, hends⟩))

namespace AccessToken

variable {t : AccessToken} {expiresOn : Int64}

theorem isBounded_iff (hends : t.expiresOn? = some expiresOn) :
    t.IsBounded ↔ Int64.minValue.toInt + 300 ≤ expiresOn.toInt := by
  refine ⟨fun h => h expiresOn hends, fun h expiresOn' hends' => ?_⟩
  obtain rfl := Option.some.inj (hends.symm.trans hends')
  exact h

theorem endsAfter_iff (hends : t.expiresOn? = some expiresOn) {time : Int} :
    t.EndsAfter time ↔ time < expiresOn.toInt := by
  refine ⟨fun ⟨expiresOn', hends', hlt⟩ => ?_, fun hlt => ⟨expiresOn, hends, hlt⟩⟩
  obtain rfl := Option.some.inj (hends.symm.trans hends')
  exact hlt

/-- If it can be told whether a token is fresh, that is what the numbers say. -/
theorem isFresh?_eq_decide_iff (hends : t.expiresOn? = some expiresOn) (now : Int64) :
    t.isFresh? now = some (decide (expiresOn.toInt - 300 > now.toInt)) ↔
      (t.isFresh? now).isSome := by
  have hfresh := isFresh?_iff (t := t) now
  rw [endsAfter_iff hends] at hfresh
  cases htold : t.isFresh? now with
  | none => exact iff_of_false nofun nofun
  | some fresh =>
    rw [htold, Option.some.injEq] at hfresh
    refine iff_of_true (congrArg some ?_) rfl
    rw [Bool.eq_iff_iff, hfresh, decide_eq_true_eq]
    omega

/-- The freshness of a token that ends at a time, and that of the numbers.  They agree unless the
token ends within the first five minutes that there are: then there is no telling, and a command
line that keeps the token panics, now and always.  No token is fresh that has ended. -/
theorem fresh_by_numbers_iff (hends : t.expiresOn? = some expiresOn) (now : Int64) :
    (t.isFresh? now = some (decide (expiresOn.toInt - 300 > now.toInt)) ↔
      Int64.minValue.toInt + 300 ≤ expiresOn.toInt) ∧
    (t.isFresh? now = none ↔ expiresOn.toInt < Int64.minValue.toInt + 300) ∧
    (t.isFresh? now = some true → now < expiresOn) ∧
    (expiresOn.toInt < Int64.minValue.toInt + 300 → ∀ c : CommandLine, c.cached? = some t →
      ∀ (m : Machine σ) (s : σ), c.token m s = (.panicked, c, (m.now s).2)) := by
  have htold := (isSome_isFresh?_iff (t := t) now).trans (isBounded_iff hends)
  refine ⟨(isFresh?_eq_decide_iff hends now).trans htold, ?_, fun hfresh => ?_,
    fun hearly c hkept m s => ?_⟩
  · rw [← Int.not_le, ← htold, Option.not_isSome_iff_eq_none]
  · have hlater := (endsAfter_iff hends).1 ((isFresh?_iff now).1 hfresh)
    rw [Int64.lt_iff_toInt_lt]
    omega
  · have hunbounded : ¬ t.IsBounded := fun h => Int.not_le.2 hearly ((isBounded_iff hends).1 h)
    exact CommandLine.token_of_not_isBounded hkept hunbounded m s

/-- A token that ended at the first second of all, looked at in 1970. -/
theorem fresh_by_numbers_iff_firstSecond :
    let t : AccessToken := ⟨"old", some Int64.minValue, none, none⟩
    let c : CommandLine := ⟨"az", "sub", some t⟩
    t.expiresOn? = some Int64.minValue ∧ Int64.minValue.toInt < Int64.minValue.toInt + 300 ∧
      t.isFresh? 0 = none ∧
      t.isFresh? 0 ≠ some (decide (Int64.minValue.toInt - 300 > (0 : Int64).toInt)) ∧
      c.token CommandLine.steadyMachine (0, .error .notFound) =
        (.panicked, c, (0, .error .notFound)) := by
  intro t c
  have hearly : Int64.minValue.toInt < Int64.minValue.toInt + 300 := by decide
  obtain ⟨hagrees, hnone, -, hpanics⟩ := fresh_by_numbers_iff (t := t) rfl 0
  exact ⟨rfl, hearly, hnone.2 hearly, fun h => absurd (hagrees.1 h) (by decide),
    hpanics hearly c rfl CommandLine.steadyMachine (0, .error .notFound)⟩

end AccessToken

/-- What `az` prints of a token that ended at the first second of all. -/
def firstSecond : Machine.Exit :=
  ⟨some 0, Text.Utf8.encode
    "\x7b\"accessToken\":\"old\",\"expires_on\":-9223372036854775808\x7d", []⟩

/-- There is a token that `az` can hand out of which there is no telling whether it is fresh. -/
theorem not_forall_fresh_by_numbers :
    ¬ ∀ (ended : Machine.Exit) (t : AccessToken) (expiresOn now : Int64),
      CommandLine.judge (.ok ended) = .ok t → t.expiresOn? = some expiresOn →
      t.isFresh? now = some (decide (expiresOn.toInt - 300 > now.toInt)) := by
  intro hall
  have hjudge : CommandLine.judge (.ok firstSecond) =
      .ok ⟨"old", some Int64.minValue, none, none⟩ := by decide +kernel
  exact absurd (hall firstSecond _ Int64.minValue 0 hjudge rfl) (by decide)

end Provisioner.Azure
