/-
  ListingMetadata.Proofs.Watch.Runs
  ─────────────────────────────────
  **A MONITOR OVER WHOLE RUNS.**

  A run is any sequence of checks and of calls on the listeners.  Each check
  reads what it reads, a time or a failure, and has listeners that do what they
  do when they are told: change the listeners themselves, or fail.

  Main results:
    * `Monitor.isLatest_after`      — the baseline is the latest time read,
    * `Monitor.listeners_after`     — the listeners are those that the calls of
                                      the run leave, calls by listeners included,
    * `Monitor.check_after`         — when a check tells of a change, whom, and
                                      what the other checks leave alone.

  The proofs go by the four cases of one check (`check_cases`), then by
  induction on the run, last deed first.  A run comes to a row of calls on the
  listeners, and whom these leave registered is told in `Proofs.Watch.Calls`.
-/
import Mathlib.Data.List.Induction
import ListingMetadata.Watch.Monitor
import ListingMetadata.Proofs.Watch.Calls

namespace ListingMetadata.Calendar.Instant

/-! ## §1. Earlier and later -/

theorem before_trans {a b c : Instant} (hab : a.before b) (hbc : b.before c) : a.before c := by
  simp only [before, Bool.or_eq_true, Bool.and_eq_true, decide_eq_true_eq] at *
  omega

/-- Of two times one is the earlier, or they are equal. -/
theorem before_or_eq_or_before (a b : Instant) : a.before b ∨ a = b ∨ b.before a := by
  obtain ⟨s, n⟩ := a
  obtain ⟨s', n'⟩ := b
  simp only [before, Bool.or_eq_true, Bool.and_eq_true, decide_eq_true_eq, Instant.mk.injEq]
  omega

end ListingMetadata.Calendar.Instant

namespace ListingMetadata.Watch

open Calendar

/-- The latest of some times, if there are any. -/
def IsLatest (times : List Instant) : Option Instant → Prop
  | none => times = []
  | some t => t ∈ times ∧ ∀ r ∈ times, r = t ∨ r.before t

/-- A time later than all earlier ones, of which there are some. -/
def IsNews (earlier : List Instant) (t : Instant) : Prop :=
  earlier ≠ [] ∧ ∀ r ∈ earlier, r.before t

/-- A time is news if it is later than the latest before it. -/
theorem isNews_iff {earlier : List Instant} {latest : Instant}
    (h : IsLatest earlier (some latest)) (t : Instant) :
    IsNews earlier t ↔ latest.before t := by
  obtain ⟨hmem, hall⟩ := h
  constructor
  · exact fun hnews => hnews.2 latest hmem
  · intro hlt
    refine ⟨List.ne_nil_of_mem hmem, fun r hr => ?_⟩
    obtain rfl | hr := hall r hr
    · exact hlt
    · exact Instant.before_trans hr hlt

/-! ## §2. What listeners do -/

/-- Whom the events tell of which time, in order. -/
def told (events : List Event) : List (String × Instant) :=
  events.filterMap Event.told?

/-- The calls that a listener's acts make on the listeners; a failure ends them. -/
def Act.calls : List Act → List Call
  | [] => []
  | .add name :: acts => .add name :: calls acts
  | .remove name :: acts => .remove name :: calls acts
  | .replace names :: acts => .replaceAll names :: calls acts
  | .fail _ :: _ => []

theorem told_append (xs ys : List Event) : told (xs ++ ys) = told xs ++ told ys :=
  List.filterMap_append

theorem value_perform (place : Nat) (acts : List Act) (ls : Listeners) :
    (perform place acts ls).value = (Act.calls acts).foldl Listeners.call ls := by
  induction acts generalizing ls with
  | nil => rfl
  | cons act acts ih =>
    cases act with
    | add name => exact ih (ls.add name)
    | remove name => exact ih (ls.remove name)
    | replace names => exact ih (Listeners.ofNames names)
    | fail message => rfl

/-- A listener at work tells nobody. -/
theorem told_perform (place : Nat) (acts : List Act) (ls : Listeners) :
    told (perform place acts ls).events = [] := by
  induction acts generalizing ls with
  | nil => rfl
  | cons act acts ih =>
    cases act with
    | add name => exact ih (ls.add name)
    | remove name => exact ih (ls.remove name)
    | replace names => exact ih (Listeners.ofNames names)
    | fail message => rfl

theorem value_tellAll (acts : String → List Act) (t : Instant) (place : Nat)
    (names : List String) (ls : Listeners) :
    (tellAll acts t place names ls).value
      = (names.flatMap fun name => Act.calls (acts name)).foldl Listeners.call ls := by
  induction names generalizing place ls with
  | nil => rfl
  | cons name names ih =>
    rw [List.flatMap_cons, List.foldl_append, ← value_perform place]
    exact ih (place + 1) _

/-- All are told, in order, whatever they do. -/
theorem told_tellAll (acts : String → List Act) (t : Instant) (place : Nat)
    (names : List String) (ls : Listeners) :
    told (tellAll acts t place names ls).events = names.map fun name => (name, t) := by
  induction names generalizing place ls with
  | nil => rfl
  | cons name names ih =>
    have hname : told [Event.told name t] = [(name, t)] := rfl
    rw [tellAll, Logged.events_bind, Logged.events_bind, told_append, told_append, told_perform,
      Logged.events_tell, hname, ih]
    rfl

/-! ## §3. Runs -/

/-- What is done with a monitor.  What listeners do when they are told is part
of the check, as it may be something else each time. -/
inductive Deed where
  | check (reading : Except Failure Instant) (acts : String → List Act)
  | call (c : Call)

/-- The time that a deed reads. -/
def Deed.timeRead : Deed → Option Instant
  | .check (.ok t) _ => some t
  | _ => none

/-- The times that are read in a run. -/
def timesRead (deeds : List Deed) : List Instant :=
  deeds.filterMap Deed.timeRead

namespace Monitor

/-- The monitor after a deed. -/
def step (m : Monitor) : Deed → Logged Event Monitor
  | .check reading acts => do
    let (_, m) ← m.check acts reading
    pure m
  | .call c => pure { m with listeners := m.listeners.call c }

/-- The monitor after a run. -/
def after (deeds : List Deed) : Monitor :=
  (Logged.steps step fresh deeds).value

/-- The calls that a deed makes on the listeners, with those of the listeners that it
tells. -/
def calls (m : Monitor) : Deed → List Call
  | .check reading acts =>
    (told (m.check acts reading).events).flatMap fun (name, _) => Act.calls (acts name)
  | .call c => [c]

/-- All calls on the listeners in a run. -/
def history (deeds : List Deed) : List Call :=
  go fresh deeds
where
  go : Monitor → List Deed → List Call
    | _, [] => []
    | m, deed :: deeds => m.calls deed ++ go (m.step deed).value deeds

/-- What a check comes to: a failure, a baseline, a change that is told to all,
or nothing new. -/
theorem check_cases (acts : String → List Act) (m : Monitor) (reading : Except Failure Instant) :
    (∃ f, reading = .error f ∧ (m.check acts reading).value = (.failed, m)
      ∧ told (m.check acts reading).events = []) ∨
    (∃ t, reading = .ok t ∧ m.baseline = none
      ∧ m.check acts reading = pure (.baseline t, { m with baseline := some t })) ∨
    (∃ t latest ls, reading = .ok t ∧ m.baseline = some latest ∧ latest.before t
      ∧ (m.check acts reading).value = (.changed t, ⟨some t, ls⟩)
      ∧ told (m.check acts reading).events = m.listeners.map (fun name => (name, t))
      ∧ ls = (m.listeners.flatMap fun name => Act.calls (acts name)).foldl
          Listeners.call m.listeners) ∨
    (∃ t latest, reading = .ok t ∧ m.baseline = some latest ∧ ¬ latest.before t
      ∧ m.check acts reading = pure (.unchanged, m)) := by
  cases reading with
  | error f => exact .inl ⟨f, rfl, rfl, rfl⟩
  | ok t =>
    right
    cases hb : m.baseline with
    | none => exact .inl ⟨t, rfl, rfl, by simp only [check, hb]⟩
    | some latest =>
      right
      by_cases hlt : latest.before t
      · refine .inl ⟨t, latest, _, rfl, rfl, hlt, ?_, ?_, (value_tellAll acts t 0 _ _)⟩
        · simp only [check, hb, if_pos hlt]
          rfl
        · simp only [check, hb, if_pos hlt, Logged.events_bind, Logged.events_pure,
            Logged.events_tell, told_append, told_tellAll]
          exact List.append_nil _
      · exact .inr ⟨t, latest, rfl, rfl, hlt, by simp only [check, hb, if_neg hlt]⟩

theorem after_concat (deeds : List Deed) (deed : Deed) :
    after (deeds ++ [deed]) = ((after deeds).step deed).value := by
  rw [after, after, Logged.value_steps, Logged.value_steps, List.foldl_append]
  rfl

theorem timesRead_concat (deeds : List Deed) (deed : Deed) :
    timesRead (deeds ++ [deed]) = timesRead deeds ++ deed.timeRead.toList := by
  rw [timesRead, List.filterMap_append]
  cases h : deed.timeRead <;> simp [timesRead, h]

/-! ## §4. The baseline -/

/-- A check keeps the baseline the latest time read. -/
theorem isLatest_check {times : List Instant} {m : Monitor} (h : IsLatest times m.baseline)
    (acts : String → List Act) (reading : Except Failure Instant) :
    IsLatest (times ++ (Deed.check reading acts).timeRead.toList)
      (m.check acts reading).value.2.baseline := by
  obtain ⟨f, rfl, hv, -⟩ | ⟨t, rfl, hb, hc⟩ | ⟨t, latest, ls, rfl, hb, hlt, hv, -⟩ |
    ⟨t, latest, rfl, hb, hlt, hc⟩ := check_cases acts m reading
  · rw [hv]
    simpa [Deed.timeRead] using h
  · rw [hb] at h
    rw [hc, show times = [] from h]
    exact ⟨List.mem_singleton_self t, fun r hr => .inl (List.mem_singleton.mp hr)⟩
  · rw [hb] at h
    rw [hv]
    refine ⟨List.mem_append_right _ (List.mem_singleton_self t), fun r hr => ?_⟩
    obtain hr | hr := List.mem_append.mp hr
    · exact .inr (((isNews_iff h t).mpr hlt).2 r hr)
    · exact .inl (List.mem_singleton.mp hr)
  · rw [hb] at h
    rw [hc]
    show IsLatest _ m.baseline
    rw [hb]
    refine ⟨List.mem_append_left _ h.1, fun r hr => ?_⟩
    obtain hr | hr := List.mem_append.mp hr
    · exact h.2 r hr
    · obtain rfl := List.mem_singleton.mp hr
      obtain hlt' | rfl | hgt := latest.before_or_eq_or_before r
      · exact absurd hlt' hlt
      · exact .inl rfl
      · exact .inr hgt

/-- After any run the baseline is the latest time read. -/
theorem isLatest_after (deeds : List Deed) : IsLatest (timesRead deeds) (after deeds).baseline := by
  induction deeds using List.reverseRecOn with
  | nil => rfl
  | append_singleton deeds deed ih =>
    rw [after_concat, timesRead_concat]
    cases deed with
    | check reading acts => exact isLatest_check ih acts reading
    | call c => simpa [step, Deed.timeRead] using ih

/-! ## §5. The listeners -/

theorem listeners_step (m : Monitor) (deed : Deed) :
    (m.step deed).value.listeners = (m.calls deed).foldl Listeners.call m.listeners := by
  cases deed with
  | check reading acts =>
    show (m.check acts reading).value.2.listeners = _
    rw [calls]
    obtain ⟨f, rfl, hv, ht⟩ | ⟨t, rfl, hb, hc⟩ | ⟨t, latest, ls, rfl, hb, hlt, hv, ht, hls⟩ |
      ⟨t, latest, rfl, hb, hlt, hc⟩ := check_cases acts m reading
    · rw [hv, ht]
      rfl
    · rw [hc]
      rfl
    · rw [hv, ht, List.flatMap_map]
      exact hls
    · rw [hc]
      rfl
  | call c => rfl

theorem listeners_steps (m : Monitor) (deeds : List Deed) :
    (Logged.steps step m deeds).value.listeners
      = (history.go m deeds).foldl Listeners.call m.listeners := by
  induction deeds generalizing m with
  | nil => rfl
  | cons deed deeds ih =>
    rw [history.go, List.foldl_append, ← listeners_step]
    exact ih (m.step deed).value

/-- The listeners after a run are those after its calls. -/
theorem listeners_after (deeds : List Deed) :
    (after deeds).listeners = Listeners.afterCalls (history deeds) :=
  listeners_steps fresh deeds

/-! ## §6. Checks in a run -/

/-- The monitor with the first baseline, if a time is read and none was before. -/
def started (m : Monitor) : List Instant → Except Failure Instant → Monitor
  | [], .ok t => { m with baseline := some t }
  | _, _ => m

section Checks

variable {times : List Instant} {m : Monitor} (h : IsLatest times m.baseline)
  (acts : String → List Act)

include h

/-- A check that reads news comes to a change, and all listeners are told. -/
theorem check_of_isNews {t : Instant} (ht : IsNews times t) :
    (m.check acts (.ok t)).value.1 = .changed t
    ∧ told (m.check acts (.ok t)).events = m.listeners.map (fun name => (name, t)) := by
  obtain ⟨f, hr, -⟩ | ⟨t', -, hb, -⟩ | ⟨t', latest, ls, hr, -, -, hv, htold, -⟩ |
    ⟨t', latest, hr, hb, hle, -⟩ := check_cases acts m (.ok t)
  · cases hr
  · -- without a baseline nothing was read
    rw [hb] at h
    exact absurd h ht.1
  · cases hr
    exact ⟨by rw [hv], htold⟩
  · cases hr
    rw [hb] at h
    exact absurd ((isNews_iff h t).mp ht) hle

/-- A check that reads no news tells nobody and leaves the monitor alone, but for a
first baseline. -/
theorem check_of_not_isNews {reading : Except Failure Instant}
    (hn : ¬ ∃ t, reading = .ok t ∧ IsNews times t) :
    (∀ t, (m.check acts reading).value.1 ≠ .changed t)
    ∧ told (m.check acts reading).events = []
    ∧ (m.check acts reading).value.2 = m.started times reading := by
  obtain ⟨f, rfl, hv, htold⟩ | ⟨t, rfl, hb, hc⟩ | ⟨t, latest, ls, rfl, hb, hlt, -⟩ |
    ⟨t, latest, rfl, hb, -, hc⟩ := check_cases acts m reading
  · rw [hv]
    refine ⟨fun t ht => ?_, htold, ?_⟩
    · cases ht
    · cases times <;> rfl
  · rw [hb] at h
    rw [hc, show times = [] from h]
    refine ⟨fun t' ht => ?_, rfl, rfl⟩
    cases ht
  · rw [hb] at h
    exact absurd ⟨t, rfl, (isNews_iff h t).mpr hlt⟩ hn
  · rw [hb] at h
    rw [hc]
    refine ⟨fun t' ht => ?_, rfl, ?_⟩
    · cases ht
    · cases times with
      | nil => exact absurd h.1 List.not_mem_nil
      | cons r times => rfl

end Checks

/-- **A check after any run** makes the latest time read the baseline.  It comes
to a change exactly for a time that is later than all read before, of which
there are some; then all who are registered when it begins are told of that
time, each once, in the order of the additions that made them so.  Any other
check tells nobody and leaves the monitor as it was, but for a first baseline. -/
theorem check_after (before : List Deed) (reading : Except Failure Instant)
    (acts : String → List Act) :
    let m := after before
    let done := m.check acts reading
    IsLatest (timesRead (before ++ [.check reading acts])) done.value.2.baseline
    ∧ (∀ t, done.value.1 = .changed t ↔ reading = .ok t ∧ IsNews (timesRead before) t)
    ∧ (∀ t, reading = .ok t → IsNews (timesRead before) t →
        told done.events = m.listeners.map (fun name => (name, t))
        ∧ m.listeners.Registered (history before))
    ∧ ((¬ ∃ t, reading = .ok t ∧ IsNews (timesRead before) t) →
        told done.events = []
        ∧ done.value.2 = m.started (timesRead before) reading) := by
  intro m done
  have hlatest : IsLatest (timesRead before) m.baseline := isLatest_after before
  refine ⟨?_, fun t => ⟨fun hc => ?_, ?_⟩, ?_, fun hn => (check_of_not_isNews hlatest acts hn).2⟩
  · rw [timesRead_concat]
    exact isLatest_check hlatest acts reading
  · by_cases hnews : ∃ t, reading = .ok t ∧ IsNews (timesRead before) t
    · obtain ⟨t', rfl, ht⟩ := hnews
      have hsame : Outcome.changed t' = .changed t :=
        (check_of_isNews hlatest acts ht).1.symm.trans hc
      cases hsame
      exact ⟨rfl, ht⟩
    · exact absurd hc ((check_of_not_isNews hlatest acts hnews).1 t)
  · rintro ⟨rfl, ht⟩
    exact (check_of_isNews hlatest acts ht).1
  · rintro t rfl ht
    refine ⟨(check_of_isNews hlatest acts ht).2, ?_⟩
    rw [show m.listeners = _ from listeners_after before]
    exact Listeners.registered_of_calls (history before)

-- the first of three removes itself, leaves the last alone and fails; all three are told
example :
    told ((after [.call (.add "a"), .call (.replaceAll ["b", "c", "b"]), .call (.add "a"),
        .check (.ok ⟨5, 0⟩) fun _ => [], .call (.remove "b"), .call (.add "b"),
        .check (.error (.settings .unavailable)) fun _ => []]).check
      (fun name => if name = "c" then [.remove "c", .replace ["b"], .fail none] else [.add "d"])
      (.ok ⟨5, 1⟩)).events
    = [("c", ⟨5, 1⟩), ("a", ⟨5, 1⟩), ("b", ⟨5, 1⟩)] := by
  decide

end Monitor

end ListingMetadata.Watch
