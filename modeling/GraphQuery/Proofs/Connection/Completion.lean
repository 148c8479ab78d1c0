import GraphQuery.Connection.Run
import GraphQuery.Proofs.Connection.Drivers

/-!
# One operation after the other

An operation that is alone on its connection comes to its end, whatever the database answers.
Whoever completes each operation before the next one begins holds at most one open driver at any
time between two of them, and has closed each of the others exactly once.
-/
namespace GraphQuery.Connection

/-- A task that is alone on its connection comes to its end. -/
inductive Ends : Progress → Connection → Except Incident Value → Connection → Prop where
  | finished (outcome : Except Incident Value) (c : Connection) :
    Ends (.finished outcome) c outcome c
  | resumed {p : Phase} {c next : Connection} {outcome : Except Incident Value} (reply : Reply)
    (prompt : Prompt)
    (h : Ends (c.resume p reply prompt).1 (c.resume p reply prompt).2 outcome next) :
    Ends (.waiting p) c outcome next

/-- An operation is begun and runs to its end before anything else happens. -/
def Completes (op : Operation) (prompt : Prompt) (c : Connection)
    (outcome : Except Incident Value) (next : Connection) : Prop :=
  Ends (c.start op prompt).1 (c.start op prompt).2 outcome next

/-! ## Operations that the database answers -/

namespace Database

/-- How often a task goes on at most from where it waits. -/
def remaining (d : Database) : Phase → Nat
  | .verifying _ _ => d.rows.length + 6
  | .entering _ => d.rows.length + 5
  | .sending _ => d.rows.length + 4
  | .reading _ rows => d.rows.length - rows.length + 3
  | .working => 2
  | .discarding _ _ _ | .closing _ | .leaving _ _ => 1

def left (d : Database) : Progress → Nat
  | .waiting p => d.remaining p
  | .finished _ => 0

theorem remaining_le (d : Database) (p : Phase) : d.remaining p ≤ d.rows.length + 6 := by
  cases p <;> simp only [remaining] <;> omega

theorem left_le (d : Database) (p : Progress) : d.left p ≤ d.rows.length + 6 := by
  cases p with
  | waiting p => exact d.remaining_le p
  | finished outcome => exact Nat.zero_le _

theorem left_endUse (d : Database) (u : Use) (outcome : Except Incident (List Value))
    (c : Connection) : d.left (c.endUse u outcome).1 = 0 := by
  cases u with
  | work => rfl
  | query r => cases outcome <;> rfl

theorem left_failGoal (d : Database) (goal : Goal) (e : Incident) (c : Connection) :
    d.left (c.failGoal goal e).1 = 0 := by
  cases goal with
  | connect => rfl
  | session u => exact d.left_endUse u _ c

theorem left_proceed (d : Database) (goal : Goal) (prompt : Prompt) (c : Connection) :
    d.left (c.proceed goal prompt).1 ≤ d.rows.length + 5 := by
  cases goal with
  | connect => exact Nat.zero_le _
  | session u =>
    rw [proceed]
    split
    · rw [openSession]
      split
      · exact (d.left_endUse u _ _).le.trans (Nat.zero_le _)
      · exact Nat.le_refl _
    · exact (d.left_endUse u _ c).le.trans (Nat.zero_le _)

theorem ending_eq (error : Option Incident) :
    ending error = .done ∨ ∃ e, ending error = .failed e := by
  cases error with
  | none => exact .inl rfl
  | some e => exact .inr ⟨e, rfl⟩

/-- With every reply a task comes closer to its end. -/
theorem left_resume_lt (d : Database) (p : Phase) (prompt : Prompt) (c : Connection) :
    d.left (c.resume p (d.reply p) prompt).1 < d.remaining p := by
  cases p with
  | verifying driver goal =>
    rw [reply]
    obtain hdone | ⟨e, hfailed⟩ := ending_eq d.connectError
    · rw [hdone]
      exact Nat.lt_succ_of_le (d.left_proceed goal prompt _)
    · rw [hfailed]
      simp [resume, left, remaining]
  | discarding driver goal reason => exact (d.left_failGoal goal _ c).trans_lt Nat.zero_lt_one
  | closing driver => exact Nat.zero_lt_one
  | entering u =>
    cases u with
    | work => simp [reply, resume, left, remaining]
    | query r => simp [reply, resume, left, remaining]
  | working => exact Nat.one_lt_two
  | sending r =>
    rw [reply]
    obtain hdone | ⟨e, hfailed⟩ := ending_eq d.runError
    · rw [hdone]
      simp [resume, left, remaining]
    · rw [hfailed]
      simp [resume, leave, left, remaining]
  | reading r rows =>
    rw [reply]
    cases hrow : d.rows[rows.length]? with
    | none =>
      simp only
      obtain hdone | ⟨e, hfailed⟩ := ending_eq d.rowError
      · rw [hdone]
        simp [resume, leave, left, remaining]
      · rw [hfailed]
        simp [resume, leave, left, remaining]
    | some row =>
      obtain ⟨hlt, -⟩ := List.getElem?_eq_some_iff.1 hrow
      rw [resume.eq_def]
      simp only
      split
      · simp only [left, remaining, List.length_append, List.length_singleton]
        omega
      · simp [leave, left, remaining]
  | leaving u outcome => exact (d.left_endUse u _ c).trans_lt Nat.zero_lt_one

theorem drive_ends (d : Database) {fuel : Nat} {p : Progress} (c : Connection)
    (hfuel : d.left p ≤ fuel) : ∃ outcome next,
      drive d fuel (p, c) = (.finished outcome, next) ∧ Ends p c outcome next := by
  induction fuel generalizing p c with
  | zero =>
    cases p with
    | finished outcome => exact ⟨outcome, c, rfl, .finished outcome c⟩
    | waiting p => exact absurd ((d.left_resume_lt p {} c).trans_le hfuel) (Nat.not_lt_zero _)
  | succ fuel ih =>
    cases p with
    | finished outcome => exact ⟨outcome, c, rfl, .finished outcome c⟩
    | waiting p =>
      have hlt : d.left (c.resume p (d.reply p) {}).1 < fuel + 1 :=
        (d.left_resume_lt p {} c).trans_le hfuel
      obtain ⟨outcome, next, hdrive, hends⟩ :=
        ih (c.resume p (d.reply p) {}).2 (Nat.le_of_lt_succ hlt)
      exact ⟨outcome, next, hdrive, .resumed _ _ hends⟩

end Database

/-- An operation under a database that answers is complete. -/
theorem completes_complete (d : Database) (op : Operation) (c : Connection) :
    Completes op {} c (c.complete d op).1 (c.complete d op).2 := by
  have hfuel : d.left (c.start op {}).1 ≤ d.rows.length + 8 := (d.left_le _).trans (by omega)
  obtain ⟨outcome, next, hdrive, hends⟩ := d.drive_ends (c.start op {}).2 hfuel
  have hcomplete : c.complete d op = (outcome, next) := by
    rw [complete, hdrive]
  rw [hcomplete]
  exact hends

/-! ## What a completed operation does to the drivers -/

theorem Ends.passive {p : Progress} {c next : Connection} {outcome : Except Incident Value}
    (h : Ends p c outcome next) (hp : p.checking? = none) : next.drivers = c.drivers := by
  induction h with
  | finished outcome c => rfl
  | resumed reply prompt h ih =>
    obtain ⟨hnone, hdrivers⟩ := resume_passive hp reply prompt _
    exact (ih hnone).trans hdrivers

theorem Ends.eq_of_finished {outcome outcome' : Except Incident Value} {c next : Connection}
    (h : Ends (.finished outcome) c outcome' next) : outcome' = outcome ∧ next = c := by
  cases h
  exact ⟨rfl, rfl⟩

/-- An error that leaves a session or a query stays an error. -/
theorem endUse_error (u : Use) (e : Incident) (c : Connection) :
    ∃ e', (c.endUse u (.error e)).1 = .finished (.error e') := by
  cases u with
  | work => exact ⟨e, rfl⟩
  | query r => exact ⟨classified c.target r.text e, endUse_query_error r e c⟩

theorem failGoal_error (goal : Goal) (e : Incident) (c : Connection) :
    ∃ e', (c.failGoal goal e).1 = .finished (.error e') := by
  cases goal with
  | connect => exact ⟨e, rfl⟩
  | session u => exact endUse_error u e c

theorem Ends.error_of_failGoal {goal : Goal} {e : Incident} {c next : Connection}
    {outcome : Except Incident Value}
    (h : Ends (c.failGoal goal e).1 (c.failGoal goal e).2 outcome next) :
    ∃ e', outcome = .error e' := by
  obtain ⟨e', hfinished⟩ := failGoal_error goal e c
  rw [hfinished] at h
  exact ⟨e', h.eq_of_finished.1⟩

/-- A check ends well and the driver is held, or the driver is closed and an error is left. -/
theorem Ends.of_verifying {driver : Nat} {goal : Goal} {c next : Connection}
    {outcome : Except Incident Value}
    (h : Ends (.waiting (.verifying driver goal)) c outcome next) :
    (next.drivers = { c.drivers with held := some driver } ∧
        (goal = .connect → outcome = .ok .null)) ∨
      next.drivers = c.drivers.close driver ∧ ∃ e, outcome = .error e := by
  cases h with
  | resumed reply prompt h =>
    cases hreply : reply.isGood with
    | true =>
      rw [resume_good driver goal hreply] at h
      obtain ⟨hnone, hdrivers⟩ := proceed_passive goal prompt (c.hold driver)
      refine .inl ⟨(h.passive hnone).trans hdrivers, ?_⟩
      rintro rfl
      exact h.eq_of_finished.1
    | false =>
      obtain ⟨e, rfl⟩ := Reply.eq_failed hreply
      have hdrivers : next.drivers = c.drivers.close driver :=
        (h.passive rfl).trans (drivers_close driver c)
      refine .inr ⟨hdrivers, ?_⟩
      cases h with
      | resumed reply prompt h =>
        cases reply <;> exact h.error_of_failGoal

namespace Completes

variable {op : Operation} {goal : Goal} {prompt : Prompt} {c next : Connection}
  {outcome : Except Incident Value}

/-- Where a driver is held none is built. -/
theorem drivers_of_held (h : Completes op prompt c outcome next) (hgoal : op.goal? = some goal)
    (hheld : c.held.isSome) : next.drivers = c.drivers := by
  obtain ⟨hnone, hdrivers⟩ := start_of_held hgoal hheld prompt
  exact (Ends.passive h hnone).trans hdrivers

theorem ok_of_held (h : Completes .connect prompt c outcome next) (hheld : c.held.isSome) :
    outcome = .ok .null := by
  rw [Completes, start, connectFor, if_pos hheld] at h
  exact h.eq_of_finished.1

/-- Where none is held and a driver cannot be built. -/
theorem drivers_of_construction (h : Completes op prompt c outcome next)
    (hgoal : op.goal? = some goal) (hheld : c.held = none) {e : Incident}
    (hprompt : prompt.construction = some e) : next.drivers = c.drivers := by
  obtain ⟨c', hdrivers, hfails⟩ := start_of_construction hgoal hheld hprompt
  obtain ⟨hnone, hfailed⟩ := failGoal_passive goal e c'
  rw [Completes, hfails] at h
  exact (h.passive hnone).trans (hfailed.trans hdrivers)

/-- Where none is held a driver is built; it is held then, or closed and an error left. -/
theorem drivers_of_built (h : Completes op prompt c outcome next) (hgoal : op.goal? = some goal)
    (hheld : c.held = none) (hprompt : prompt.construction = none) :
    (next.drivers = { c.drivers.build with held := some (c.built + 1) } ∧
        (goal = .connect → outcome = .ok .null)) ∨
      next.drivers = c.drivers.build.close (c.built + 1) ∧ ∃ e, outcome = .error e := by
  obtain ⟨hwaits, hdrivers⟩ := start_of_built hgoal hheld hprompt
  rw [Completes, hwaits] at h
  rw [← hdrivers]
  exact h.of_verifying

theorem held_of_connect_error {e : Incident}
    (h : Completes .connect prompt c (.error e) next) : next.held = none := by
  cases hheld : c.held with
  | some driver => cases h.ok_of_held (by rw [hheld]; rfl)
  | none =>
    cases hprompt : prompt.construction with
    | some reason =>
      have hdrivers := h.drivers_of_construction rfl hheld hprompt
      exact (congrArg Drivers.held hdrivers).trans hheld
    | none =>
      obtain ⟨-, hok⟩ | ⟨hdrivers, -⟩ := h.drivers_of_built rfl hheld hprompt
      · cases hok rfl
      · exact (congrArg Drivers.held hdrivers).trans hheld

theorem held_of_close (h : Completes .close prompt c outcome next) : next.held = none := by
  have hwaits : (c.startClose).1.checking? = none ∧ c.startClose.2.held = none := by
    rw [startClose]
    split
    · exact ⟨rfl, ‹_›⟩
    · exact ⟨rfl, rfl⟩
  exact (congrArg Drivers.held (Ends.passive h hwaits.1)).trans hwaits.2

end Completes

/-! ## Sequences of operations -/

theorem Ends.placed {p : Progress} {c next : Connection} {outcome : Except Incident Value}
    (h : Ends p c outcome next) (hplaced : c.drivers.Placed p.checking?.toList [])
    (hfree : p.checking?.isSome → c.held = none) : next.drivers.Placed [] [] := by
  induction h with
  | finished outcome c => exact hplaced
  | @resumed p c next outcome reply prompt h ih =>
    have hgone : c.displaced? p reply = none := by
      rw [displaced?]
      split
      · exact hfree (Bool.and_eq_true_iff.1 ‹_›).1
      · rfl
    have hturn := resume_turn p reply prompt c
    rw [checking?_resume, hgone] at hturn
    refine ih ?_ fun hsome => ?_
    · rw [checking?_resume]
      exact hplaced.turn hturn (.of_eq (List.append_nil _).symm) (.refl _)
    · rw [checking?_resume] at hsome
      cases hsome

/-- Whatever its outcome, a completed operation leaves no driver open but the held one. -/
theorem Completes.placed {op : Operation} {prompt : Prompt} {c next : Connection}
    {outcome : Except Incident Value} (h : Completes op prompt c outcome next)
    (hplaced : c.drivers.Placed [] []) : next.drivers.Placed [] [] := by
  have hturn := start_turn op prompt c
  have hstarted := hplaced.turn hturn (.refl _) (.of_eq (List.append_nil _).symm)
  refine Ends.placed h hstarted fun hsome => ?_
  obtain ⟨driver, hdriver⟩ := Option.isSome_iff_exists.1 hsome
  rw [hdriver] at hturn
  exact hturn.held_of_builds

/-- What someone does with a connection: an operation, or the entry into a scope that has the
connection open, or the way out of it. -/
inductive Act where
  | operation (op : Operation)
  | enter
  | exit

/-- A scope connects when it is entered and closes when it is left, for whatever reason. -/
def Act.performed : Act → Operation
  | .operation op => op
  | .enter => .connect
  | .exit => .close

/-- The connections between two acts of a sequence, each of which is complete before the next. -/
inductive Used (target : Target) : List Act → Connection → Prop where
  | new : Used target [] (new target)
  | snoc {acts : List Act} {prompt : Prompt} {c next : Connection}
    {outcome : Except Incident Value} (h : Used target acts c) (act : Act)
    (hcomplete : Completes act.performed prompt c outcome next) : Used target (acts ++ [act]) next

theorem Used.placed {target : Target} {acts : List Act} {c : Connection} (h : Used target acts c) :
    c.drivers.Placed [] [] := by
  induction h with
  | new => exact .new
  | snoc _ act hcomplete ih => exact hcomplete.placed ih

/-- After any sequence of completed acts every driver that was created is held and was never
closed, or is not held and was closed exactly once. From there a held driver is kept by whatever
connects, a connecting that fails stores none, and after closing whatever connects creates a driver
that was not there before. -/
theorem drivers_held_or_closed {target : Target} {acts : List Act} {c : Connection}
    (h : Used target acts c) :
    c.drivers.created = List.range' 1 c.built ∧
    (∀ driver ∈ c.drivers.created,
      c.held = some driver ∧ c.drivers.closings.count driver = 0 ∨
        c.held ≠ some driver ∧ c.drivers.closings.count driver = 1) ∧
      ∀ op prompt outcome next, Completes op prompt c outcome next →
        (op.goal?.isSome → c.held.isSome → next.drivers = c.drivers) ∧
        (op = .connect → (∃ e, outcome = .error e) → next.held = none) ∧
        (op = .close → next.held = none) ∧
        (op.goal?.isSome → c.held = none → prompt.construction = none →
          ∃ fresh ∉ c.drivers.created, next.drivers.created = c.drivers.created ++ [fresh] ∧
            (next.held = some fresh ∨ next.held = none ∧ ∃ e, outcome = .error e)) := by
  refine ⟨h.placed.created, fun driver hdriver => ?_,
    fun op prompt outcome next hcomplete => ⟨?_, ?_, ?_, ?_⟩⟩
  · have hcount := h.placed.count driver
    rw [if_pos hdriver, List.count_nil] at hcount
    by_cases hheld : c.held = some driver
    · have hone : c.drivers.held.toList.count driver = 1 := by simp [drivers, hheld]
      exact .inl ⟨hheld, by omega⟩
    · have hnone : c.drivers.held.toList.count driver = 0 := by
        simpa [drivers, List.count_eq_zero] using hheld
      exact .inr ⟨hheld, by omega⟩
  · intro hgoal hheld
    obtain ⟨goal, hgoal⟩ := Option.isSome_iff_exists.1 hgoal
    exact hcomplete.drivers_of_held hgoal hheld
  · rintro rfl ⟨e, rfl⟩
    exact hcomplete.held_of_connect_error
  · rintro rfl
    exact hcomplete.held_of_close
  · intro hgoal hheld hprompt
    obtain ⟨goal, hgoal⟩ := Option.isSome_iff_exists.1 hgoal
    refine ⟨c.built + 1, h.placed.fresh, ?_⟩
    obtain ⟨hdrivers, -⟩ | ⟨hdrivers, hfails⟩ := hcomplete.drivers_of_built hgoal hheld hprompt
    · exact ⟨congrArg Drivers.created hdrivers, .inl (congrArg Drivers.held hdrivers)⟩
    · exact ⟨congrArg Drivers.created hdrivers,
        .inr ⟨(congrArg Drivers.held hdrivers).trans hheld, hfails⟩⟩

/-- The connection after acts that were each answered by a database. -/
def performAll (target : Target) (acts : List (Act × Database)) : Connection :=
  acts.foldl (fun c act => (c.complete act.2 act.1.performed).2) (new target)

theorem used_performAll (target : Target) (acts : List (Act × Database)) :
    Used target (acts.map Prod.fst) (performAll target acts) := by
  induction acts using List.reverseRecOn with
  | nil => exact .new
  | append_singleton acts act ih =>
    rw [List.map_append, performAll, List.foldl_append]
    exact ih.snoc act.1 (completes_complete act.2 act.1.performed _)

def unreachable : Database :=
  { connectError := some (.outside ⟨"ServiceUnavailable", "refused", .unavailable⟩) }

def interrupted : Database := { runError := some (.outside ⟨"StopNow", "stop", .halting⟩) }

/-- The database is out of reach at first. In the scope that is entered then, a query is
interrupted by a halting error. -/
def resumption : List (Act × Database) :=
  [(.operation .connect, unreachable), (.enter, {}),
   (.operation (.run ⟨"RETURN 1", .map [], .text "RETURN 1"⟩), interrupted), (.exit, {})]

def resumed : Connection := performAll localTarget resumption

theorem resumed_drivers : Used localTarget (resumption.map Prod.fst) resumed ∧
    resumed.drivers.created = List.range' 1 2 ∧
    resumed.held ≠ some 2 ∧ resumed.drivers.closings.count 2 = 1 ∧
    ∃ fresh ∉ [1, 2], (resumed.complete {} .session).2.drivers.created = [1, 2] ++ [fresh] := by
  have hused : Used localTarget (resumption.map Prod.fst) resumed :=
    used_performAll localTarget resumption
  obtain ⟨hcreated, hdrivers, hnext⟩ := drivers_held_or_closed hused
  obtain ⟨fresh, hfresh, hsession, -⟩ :=
    (hnext .session {} _ _ (completes_complete {} .session resumed)).2.2.2 rfl rfl rfl
  obtain ⟨hheld, -⟩ | ⟨hheld, hclosed⟩ := hdrivers 2 (by decide)
  · cases hheld
  · exact ⟨hused, hcreated, hheld, hclosed, fresh, hfresh, hsession⟩

end GraphQuery.Connection
