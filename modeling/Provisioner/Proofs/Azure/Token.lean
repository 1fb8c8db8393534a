import Provisioner.Azure.Credential
import Provisioner.Proofs.Basic

/-!
# Tokens that are kept

The command line is asked for a token again and again.  It keeps the last one that it was granted,
and that token and the clock decide whether `az` is run.  The clock may be set at any time, and
runs may fail.

* `Machine.recorded` is a machine that writes down its readings of the clock and the programs that
  it has run.
* `granted?` is the token that a run has granted, and `granted` are all those of a record.
* `CommandLine.Turn` is what comes of one call, with a case for each way that it can take.
* `CommandLine.Called` is the command line after calls.  By `eq_of_called` it keeps the last token
  that was granted to it.
* `CommandLine.serves_of_called` is what the next call does.
-/

namespace Provisioner

variable {σ : Type}

/-- What a machine has done: it has read the clock, or run a program, which may have been
dropped. -/
inductive Machine.Event
  | reading (now : Int64)
  | run (program : String) (arguments : Arguments) (ended? : Option (Except IoError Machine.Exit))

/-- The state of a machine, and what it has done so far. -/
structure Machine.Recorded (σ : Type) where
  state : σ
  events : List Machine.Event

/-- A machine that writes down what it does. -/
def Machine.recorded (m : Machine σ) : Machine (Machine.Recorded σ) where
  cancelled r := m.cancelled r.state
  now r :=
    let (now, s) := m.now r.state
    (now, ⟨s, r.events ++ [.reading now]⟩)
  isFile r path := m.isFile r.state path
  execute program arguments r :=
    let (ended?, s) := m.execute program arguments r.state
    (ended?, ⟨s, r.events ++ [.run program arguments ended?]⟩)
  request q r :=
    let (response?, s) := m.request q r.state
    (response?, { r with state := s })

namespace Azure

open Machine (Event Recorded)

/-! ## When tokens end -/

namespace AccessToken

variable {t : AccessToken}

/-- A token says that it ends after a time. -/
def EndsAfter (t : AccessToken) (time : Int) : Prop :=
  ∃ expiresOn, t.expiresOn? = some expiresOn ∧ time < expiresOn.toInt

/-- If a token says when it ends, that is not within the first five minutes that there are. -/
def IsBounded (t : AccessToken) : Prop :=
  ∀ expiresOn, t.expiresOn? = some expiresOn → Int64.minValue.toInt + 300 ≤ expiresOn.toInt

/-- A difference that does not overflow is that of the integers. -/
theorem checkedSub_eq_some_iff {a b d : Int64} :
    checkedSub a b = some d ↔ d.toInt = a.toInt - b.toInt := by
  unfold checkedSub
  dsimp only
  constructor
  · intro h
    split at h
    · next hrange =>
      cases h
      exact Int64.toInt_ofInt_of_le hrange.1
        (Int.lt_of_le_of_lt hrange.2 (by decide))
    · cases h
  · intro h
    rw [← h, if_pos ⟨d.minValue_le_toInt, d.toInt_le⟩, Int64.ofInt_toInt]

/-- The margin can be taken away unless the time is within the first five minutes. -/
theorem exists_checkedSub_margin_iff {expiresOn : Int64} :
    (∃ lastUse, checkedSub expiresOn margin = some lastUse) ↔
      Int64.minValue.toInt + 300 ≤ expiresOn.toInt := by
  have hmargin : margin.toInt = 300 := rfl
  constructor
  · rintro ⟨lastUse, h⟩
    have hdifference := checkedSub_eq_some_iff.1 h
    have hle := lastUse.minValue_le_toInt
    omega
  · intro h
    have hle := expiresOn.toInt_le
    exact ⟨_, if_pos ⟨by omega, by omega⟩⟩

/-- It can be told whether a token is fresh, unless it ends within the first five minutes. -/
theorem isSome_isFresh?_iff (now : Int64) : (t.isFresh? now).isSome ↔ t.IsBounded := by
  unfold isFresh? IsBounded
  cases t.expiresOn? with
  | none => exact iff_of_true rfl nofun
  | some expiresOn =>
    simp only [Option.isSome_map, Option.isSome_iff_exists, exists_checkedSub_margin_iff,
      Option.some.injEq, forall_eq']

/-- A token is fresh if it says that it ends more than five minutes later. -/
theorem isFresh?_iff (now : Int64) :
    t.isFresh? now = some true ↔ t.EndsAfter (now.toInt + 300) := by
  unfold isFresh? EndsAfter
  cases t.expiresOn? with
  | none => exact ⟨nofun, fun ⟨_, hsome, _⟩ => nomatch hsome⟩
  | some expiresOn =>
    have hmargin : margin.toInt = 300 := rfl
    simp only [Option.map_eq_some_iff, checkedSub_eq_some_iff, decide_eq_true_eq,
      Int64.lt_iff_toInt_lt, Option.some.injEq, exists_eq_left']
    constructor
    · rintro ⟨lastUse, hdifference, hlt⟩
      omega
    · intro hlt
      have hle := now.minValue_le_toInt
      obtain ⟨lastUse, hlast⟩ : ∃ lastUse, checkedSub expiresOn margin = some lastUse :=
        exists_checkedSub_margin_iff.2 (by omega)
      have hdifference := checkedSub_eq_some_iff.1 hlast
      exact ⟨lastUse, hdifference, by omega⟩

end AccessToken

/-! ## Tokens that are granted -/

/-- The token that a run has granted: the program has succeeded, and has printed a token. -/
def granted? : Event → Option AccessToken
  | .run _ _ (some (.ok ended)) =>
    if ended.isSuccess then (Json.decodeBytes AccessToken.decode ended.stdout).toOption else none
  | _ => none

/-- The tokens that were granted, in order. -/
def granted (events : List Event) : List AccessToken :=
  events.filterMap granted?

namespace CommandLine

theorem granted?_run (program : String) (arguments : Arguments)
    (ended : Except IoError Machine.Exit) :
    granted? (.run program arguments (some ended)) = (judge ended).toOption := by
  cases ended with
  | error e => cases e <;> rfl
  | ok ended =>
    rw [granted?, judge]
    split
    · cases Json.decodeBytes AccessToken.decode ended.stdout <;> rfl
    · rfl

/-! ## One call -/

/-- What comes of a run: an answer, and the command line afterwards. -/
inductive Outcome (c : CommandLine) :
    Option (Except IoError Machine.Exit) → Asked (Except Failure String) → CommandLine → Prop
  | granted {ended : Except IoError Machine.Exit} {t : AccessToken} : judge ended = .ok t →
    Outcome c (some ended) (.answer (.ok t.token)) { c with cached? := some t }
  | failed {ended : Except IoError Machine.Exit} {e : Failure} : judge ended = .error e →
    Outcome c (some ended) (.answer (.error e)) c
  | dropped : Outcome c none .dropped c

/-- What comes of a call: an answer, and the command line and the machine afterwards. -/
inductive Turn (m : Machine σ) (c : CommandLine) (s : σ) :
    Asked (Except Failure String) → CommandLine → σ → Prop
  | panicked {now : Int64} {s' : σ} : m.now s = (now, s') → c.fresh? now = none →
    Turn m c s .panicked c s'
  | kept {now : Int64} {s' : σ} {t : AccessToken} : m.now s = (now, s') →
    c.fresh? now = some (some t) → Turn m c s (.answer (.ok t.token)) c s'
  | ran {now : Int64} {s₁ s' : σ} {ended? : Option (Except IoError Machine.Exit)}
    {asked : Asked (Except Failure String)} {c' : CommandLine} :
    m.now s = (now, s₁) → c.fresh? now = some none →
    m.execute c.program c.arguments s₁ = (ended?, s') → Outcome c ended? asked c' →
    Turn m c s asked c' s'

variable {m : Machine σ} {c c' : CommandLine} {asked : Asked (Except Failure String)}

theorem exists_outcome (c : CommandLine) (ended? : Option (Except IoError Machine.Exit)) :
    ∃ asked c', Outcome c ended? asked c' := by
  cases ended? with
  | none => exact ⟨_, _, .dropped⟩
  | some ended =>
    cases hjudge : judge ended with
    | ok t => exact ⟨_, _, .granted hjudge⟩
    | error e => exact ⟨_, _, .failed hjudge⟩

section

variable {s s' : σ}

theorem exists_turn (m : Machine σ) (c : CommandLine) (s : σ) :
    ∃ asked c' s', Turn m c s asked c' s' := by
  rcases hnow : m.now s with ⟨now, s₁⟩
  cases hfresh : c.fresh? now with
  | none => exact ⟨_, _, _, .panicked hnow hfresh⟩
  | some fresh? =>
  cases fresh? with
  | some t => exact ⟨_, _, _, .kept hnow hfresh⟩
  | none =>
    obtain ⟨asked, c', houtcome⟩ := exists_outcome c (m.execute c.program c.arguments s₁).1
    exact ⟨_, _, _, .ran hnow hfresh rfl houtcome⟩

theorem Turn.token_eq (h : Turn m c s asked c' s') : c.token m s = (asked, c', s') := by
  unfold token
  cases h with
  | panicked hnow hfresh | kept hnow hfresh => simp only [hnow, hfresh]
  | ran hnow hfresh hrun houtcome =>
    cases houtcome with
    | granted hjudge | failed hjudge => simp only [hnow, hfresh, hrun, Option.map_some, hjudge]
    | dropped => simp only [hnow, hfresh, hrun, Option.map_none]

theorem turn_of_token (h : c.token m s = (asked, c', s')) : Turn m c s asked c' s' := by
  obtain ⟨asked', c'', s'', hturn⟩ := exists_turn m c s
  cases hturn.token_eq.symm.trans h
  exact hturn

end

/-! ## The same call with a record -/

section

variable {r r' : Recorded σ}

theorem of_now_recorded {now : Int64} (h : m.recorded.now r = (now, r')) :
    m.now r.state = (now, r'.state) ∧ r'.events = r.events ++ [.reading now] := by
  cases h
  exact ⟨rfl, rfl⟩

theorem of_execute_recorded {program : String} {arguments : Arguments}
    {ended? : Option (Except IoError Machine.Exit)}
    (h : m.recorded.execute program arguments r = (ended?, r')) :
    m.execute program arguments r.state = (ended?, r'.state) ∧
      r'.events = r.events ++ [.run program arguments ended?] := by
  cases h
  exact ⟨rfl, rfl⟩

theorem Turn.of_recorded (h : Turn m.recorded c r asked c' r') :
    Turn m c r.state asked c' r'.state := by
  cases h with
  | panicked hnow hfresh => exact .panicked (of_now_recorded hnow).1 hfresh
  | kept hnow hfresh => exact .kept (of_now_recorded hnow).1 hfresh
  | ran hnow hfresh hrun houtcome =>
    exact .ran (of_now_recorded hnow).1 hfresh (of_execute_recorded hrun).1 houtcome

/-- A call does the same with a record and without. -/
theorem token_of_recorded (h : c.token m.recorded r = (asked, c', r')) :
    c.token m r.state = (asked, c', r'.state) :=
  (turn_of_token h).of_recorded.token_eq

/-- A call has only read the clock, and either there was no telling whether the token that is kept
was fresh, or it was.  Or the call has run `az`, and there was no such token. -/
theorem Turn.recorded_cases (h : Turn m.recorded c r asked c' r') :
    ∃ now, now = (m.now r.state).1 ∧
      (((c.fresh? now = none ∧ asked = .panicked ∨
            ∃ t, c.fresh? now = some (some t) ∧ asked = .answer (.ok t.token)) ∧
          r'.events = r.events ++ [.reading now] ∧ c' = c) ∨
        (∃ ended?, c.fresh? now = some none ∧
          r'.events = r.events ++ [.reading now, .run c.program c.arguments ended?] ∧
          Outcome c ended? asked c')) := by
  cases h with
  | panicked hnow hfresh =>
    obtain ⟨hnow, hevents⟩ := of_now_recorded hnow
    exact ⟨_, (congrArg Prod.fst hnow).symm, .inl ⟨.inl ⟨hfresh, rfl⟩, hevents, rfl⟩⟩
  | kept hnow hfresh =>
    obtain ⟨hnow, hevents⟩ := of_now_recorded hnow
    exact ⟨_, (congrArg Prod.fst hnow).symm, .inl ⟨.inr ⟨_, hfresh, rfl⟩, hevents, rfl⟩⟩
  | ran hnow hfresh hrun houtcome =>
    obtain ⟨hnow, hread⟩ := of_now_recorded hnow
    obtain ⟨-, hran⟩ := of_execute_recorded hrun
    rw [hread, List.append_assoc] at hran
    exact ⟨_, (congrArg Prod.fst hnow).symm, .inr ⟨_, hfresh, hran, houtcome⟩⟩

end

/-! ## Calls one after the other -/

/-- The token that was granted last. -/
def last? (events : List Event) : Option AccessToken :=
  (granted events).getLast?

theorem last?_append (events events' : List Event) :
    last? (events ++ events') = (last? events').or (last? events) := by
  rw [last?, granted, List.filterMap_append, List.getLast?_append]
  rfl

theorem last?_append_reading (events : List Event) (now : Int64) :
    last? (events ++ [.reading now]) = last? events :=
  last?_append events [.reading now]

theorem last?_append_run (events : List Event) (now : Int64) (program : String)
    (arguments : Arguments) (ended? : Option (Except IoError Machine.Exit)) :
    last? (events ++ [.reading now, .run program arguments ended?]) =
      (granted? (.run program arguments ended?)).or (last? events) := by
  have hreading : granted? (.reading now) = none := rfl
  rw [last?_append, last?, granted, List.filterMap_cons_none hreading]
  cases hrun : granted? (.run program arguments ended?) with
  | none =>
    rw [List.filterMap_cons_none hrun]
    rfl
  | some t =>
    rw [List.filterMap_cons_some hrun]
    rfl

/-- The command line and the record after calls.  Before each of them, the machine is in any
state at all. -/
inductive Called (m : Machine σ) (start : CommandLine) : CommandLine → List Event → Prop
  | new : Called m start start []
  | call {c c' : CommandLine} {events : List Event} {s : σ}
    {asked : Asked (Except Failure String)} {r : Recorded σ} : Called m start c events →
    c.token m.recorded ⟨s, events⟩ = (asked, c', r) → Called m start c' r.events

section

variable {events : List Event}

theorem Outcome.eq_last {ended? : Option (Except IoError Machine.Exit)}
    (h : Outcome c ended? asked c') (hlast : c.cached? = last? events) (now : Int64) :
    c' = { c with
      cached? := last? (events ++ [.reading now, .run c.program c.arguments ended?]) } := by
  rw [last?_append_run, ← hlast]
  cases h with
  | granted hjudge | failed hjudge =>
    rw [granted?_run, hjudge]
    rfl
  | dropped => rfl

/-- A call leaves in the command line the token that was granted last. -/
theorem Turn.eq_last {r r' : Recorded σ} (h : Turn m.recorded c r asked c' r')
    (hlast : c.cached? = last? r.events) : c' = { c with cached? := last? r'.events } := by
  obtain ⟨now, -, ⟨-, hevents, rfl⟩ | ⟨ended?, -, hevents, houtcome⟩⟩ := h.recorded_cases
  · rw [hevents, last?_append_reading, ← hlast]
  · rw [hevents]
    exact houtcome.eq_last hlast now

/-- After calls, a command line that was new keeps the token that was granted last. -/
theorem eq_of_called {start : CommandLine} (hnew : start.cached? = none)
    (h : Called m start c events) : c = { start with cached? := last? events } := by
  induction h with
  | new =>
    obtain ⟨program, subscription, cached?⟩ := start
    obtain rfl : cached? = none := hnew
    rfl
  | call _ htoken ih =>
    subst ih
    exact (turn_of_token htoken).eq_last rfl

/-- What a call has to do with the calls before it.  It answers with the token that was granted
last.  It does not run `az` exactly if it keeps a token that ends more than five minutes later, and
answers with that one.  Otherwise what it does is up to the run.  It never panics. -/
structure Serves (c : CommandLine) (now : Int64) (events : List Event)
    (asked : Asked (Except Failure String)) (c' : CommandLine) (events' : List Event) : Prop where
  latest : ∀ token, asked = .answer (.ok token) → ∃ t, last? events' = some t ∧ t.token = token
  unrun_iff : events' = events ++ [.reading now] ↔
    ∃ t, c.cached? = some t ∧ t.EndsAfter (now.toInt + 300)
  kept : events' = events ++ [.reading now] →
    ∃ t, c.cached? = some t ∧ asked = .answer (.ok t.token) ∧ c' = c
  ran : events' ≠ events ++ [.reading now] → ∃ ended?,
    events' = events ++ [.reading now, .run c.program c.arguments ended?] ∧
      Outcome c ended? asked c'
  unpanicked : asked ≠ .panicked

theorem fresh?_eq_some_iff {now : Int64} {t : AccessToken} :
    c.fresh? now = some (some t) ↔ c.cached? = some t ∧ t.EndsAfter (now.toInt + 300) := by
  rw [← AccessToken.isFresh?_iff, fresh?]
  cases c.cached? with
  | none => exact ⟨nofun, fun h => nomatch h.1⟩
  | some kept =>
    simp only [Option.map_eq_some_iff, Option.some.injEq]
    constructor
    · rintro ⟨fresh, hfresh, hsome⟩
      split at hsome
      · next htrue =>
        cases hsome
        exact ⟨rfl, htrue ▸ hfresh⟩
      · cases hsome
    · rintro ⟨rfl, hfresh⟩
      exact ⟨true, hfresh, rfl⟩

/-- There is no telling of a token that ends within the first five minutes. -/
theorem fresh?_eq_none_iff {now : Int64} :
    c.fresh? now = none ↔ ∃ t, c.cached? = some t ∧ ¬ t.IsBounded := by
  rw [fresh?]
  cases c.cached? with
  | none => exact ⟨nofun, fun ⟨_, h, _⟩ => nomatch h⟩
  | some kept =>
    simp only [Option.map_eq_none_iff, Option.some.injEq, exists_eq_left',
      ← AccessToken.isSome_isFresh?_iff now, Option.not_isSome_iff_eq_none]

theorem Outcome.exists_of_ok {ended? : Option (Except IoError Machine.Exit)} {token : String}
    (h : Outcome c ended? (.answer (.ok token)) c') :
    ∃ t, c'.cached? = some t ∧ t.token = token := by
  cases h with
  | granted hjudge => exact ⟨_, rfl, rfl⟩

theorem Outcome.ne_panicked {ended? : Option (Except IoError Machine.Exit)}
    (h : Outcome c ended? asked c') : asked ≠ .panicked := by
  cases h <;> nofun

/-- Whatever the calls before have come to and whatever the clock says, a new call answers with the
token that was granted last, and it runs `az` unless the token ends more than five minutes later. -/
theorem serves_of_called {program subscription : String} {s : σ} {r : Recorded σ}
    (h : Called m ⟨program, subscription, none⟩ c events)
    (hbounded : ∀ t ∈ granted events, t.IsBounded)
    (htoken : c.token m.recorded ⟨s, events⟩ = (asked, c', r)) :
    c.Serves (m.now s).1 events asked c' r.events := by
  have hlast : c.cached? = last? events := by
    rw [eq_of_called rfl h]
  have hturn := turn_of_token htoken
  have hkeeps : c'.cached? = last? r.events := by
    rw [hturn.eq_last hlast]
  obtain ⟨now, rfl, ⟨⟨hnone, -⟩ | ⟨t, ht, rfl⟩, hevents, rfl⟩ |
    ⟨ended?, hstale, hevents, houtcome⟩⟩ := hturn.recorded_cases
  · obtain ⟨t, ht, hunbounded⟩ := fresh?_eq_none_iff.1 hnone
    exact absurd (hbounded t (List.mem_of_getLast? (hlast.symm.trans ht))) hunbounded
  · obtain ⟨hcached, hends⟩ := fresh?_eq_some_iff.1 ht
    refine ⟨?_, iff_of_true hevents ⟨t, hcached, hends⟩, fun _ => ⟨t, hcached, rfl, rfl⟩,
      fun hne => absurd hevents hne, nofun⟩
    intro token htoken
    cases htoken
    exact ⟨t, hkeeps.symm.trans hcached, rfl⟩
  · have hran : r.events ≠ events ++ [.reading (m.now s).1] := by
      intro hread
      cases List.append_cancel_left (hevents.symm.trans hread)
    have hnone : ¬ ∃ t, c.cached? = some t ∧ t.EndsAfter ((m.now s).1.toInt + 300) := by
      rintro ⟨t, ht⟩
      cases hstale.symm.trans (fresh?_eq_some_iff.2 ht)
    refine ⟨?_, iff_of_false hran hnone, fun hread => absurd hread hran,
      fun _ => ⟨ended?, hevents, houtcome⟩, houtcome.ne_panicked⟩
    rintro token rfl
    rw [← hkeeps]
    exact houtcome.exists_of_ok

end

/-- A machine whose clock stands still, and on which all programs end alike. -/
def steadyMachine : Machine (Int64 × Except IoError Machine.Exit) where
  cancelled _ := false
  now s := (s.1, s)
  isFile _ _ := true
  execute _ _ s := (some s.2, s)
  request _ s := (some (.error ""), s)

/-- A program that prints a token. -/
def printing : Machine.Exit :=
  ⟨some 0, Text.Utf8.encode "\x7b\"accessToken\":\"first\",\"expires_on\":1000\x7d", []⟩

/-- A command line that keeps that token. -/
def keeping : CommandLine :=
  ⟨"az", "sub", some ⟨"first", some 1000, none, none⟩⟩

/-- The record of two calls.  The first is granted a token, and the second comes when that one is
about to end, and fails. -/
def twoCalls : List Event :=
  [.reading 0, .run "az" keeping.arguments (some (.ok printing)),
    .reading 700, .run "az" keeping.arguments (some (.error .notFound))]

/-- The clock is set back by a second, and the token is in use again.  Then it goes on, and `az` is
run again. -/
theorem serves_of_called_steadyMachine :
    let call (now : Int64) :=
      keeping.token steadyMachine.recorded ⟨(now, .error .notFound), twoCalls⟩
    (call 699).2.2.events = twoCalls ++ [.reading 699] ∧
    (call 699).1 = .answer (.ok "first") ∧
    (call 700).2.2.events ≠ twoCalls ++ [.reading 700] ∧
    Outcome keeping (some (.error .notFound)) (call 700).1 (call 700).2.1 := by
  intro call
  have hjudge : judge (.ok printing) = .ok ⟨"first", some 1000, none, none⟩ := by decide +kernel
  have hfirst : Turn steadyMachine.recorded ⟨"az", "sub", none⟩ ⟨(0, .ok printing), []⟩
      (.answer (.ok "first")) keeping _ := .ran rfl rfl rfl (.granted hjudge)
  have hfailed : Turn steadyMachine.recorded keeping ⟨(700, .error .notFound), twoCalls.take 2⟩
      (.answer (.error .commandLineMissing)) keeping _ := .ran rfl rfl rfl (.failed rfl)
  have hcalled : Called steadyMachine ⟨"az", "sub", none⟩ keeping twoCalls :=
    .call (.call .new hfirst.token_eq) hfailed.token_eq
  have hgranted : granted twoCalls = [⟨"first", some 1000, none, none⟩] := by decide +kernel
  have hbounded : ∀ t ∈ granted twoCalls, t.IsBounded := by
    rw [hgranted]
    rintro t ht expiresOn hends
    obtain rfl := List.mem_singleton.1 ht
    obtain rfl := Option.some.inj hends
    decide
  have hserves (now : Int64) := serves_of_called (s := (now, .error .notFound)) hcalled hbounded
    (Prod.ext rfl (Prod.ext rfl rfl))
  have hread : (call 699).2.2.events = twoCalls ++ [.reading 699] :=
    (hserves 699).unrun_iff.2 ⟨_, rfl, 1000, rfl, by decide⟩
  have hran : (call 700).2.2.events ≠ twoCalls ++ [.reading 700] := by
    intro heq
    obtain ⟨t, hkept, expiresOn, hends, hlater⟩ := (hserves 700).unrun_iff.1 heq
    cases hkept
    cases hends
    exact absurd hlater (by decide)
  obtain ⟨ended?, hevents, houtcome⟩ := (hserves 700).ran hran
  have hended : twoCalls ++ [.reading 700, .run "az" keeping.arguments (some (.error .notFound))] =
      twoCalls ++ [.reading 700, .run "az" keeping.arguments ended?] := hevents
  cases List.append_cancel_left hended
  obtain ⟨t, hkept, hanswer, -⟩ := (hserves 699).kept hread
  cases hkept
  exact ⟨hread, hanswer, hran, houtcome⟩

end CommandLine

end Azure

end Provisioner
