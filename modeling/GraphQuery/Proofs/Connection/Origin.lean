import GraphQuery.Proofs.Connection.Schedule
import Mathlib.Data.List.Nodup

/-!
# What tasks on a connection can run into

The error that a task ends with was raised by the database, arose from a row, or is the failure
that was made of one. So no task that has connected finds itself without a driver. However tasks
take turns, no driver is closed twice, and none is held that failed its check.
-/
namespace GraphQuery.Connection

def Reply.raised : Reply → List Incident
  | .failed e => [e]
  | _ => []

def Prompt.raised (prompt : Prompt) : List Incident :=
  prompt.construction.toList ++ prompt.opening.toList

/-- The errors that come from outside with a move. -/
def Move.raised : Move → List Incident
  | .start _ prompt => prompt.raised
  | .resume _ reply prompt => reply.raised ++ prompt.raised

/-- The error that a task has ended with or is about to end with. -/
def Progress.error? : Progress → Option Incident
  | .waiting (.discarding _ _ reason) => some reason
  | .waiting (.leaving _ (.error e)) => some e
  | .finished (.error e) => some e
  | _ => none

/-- A property of errors that those of rows have, and that a failure inherits from the error it is
made of. -/
structure Inherited (P : Incident → Prop) : Prop where
  fault (fault : Fault) : P fault.incident
  classify (target : Target) (text : String) {e : Incident} (h : P e) : P (classified target text e)

/-! ## One task -/

variable {P : Incident → Prop}

theorem error?_leave {reason : Incident} (h : P reason) (u : Use) (c : Connection) :
    ∀ e ∈ (c.leave u (.error reason)).1.error?, P e := by
  rintro e ⟨⟩
  exact h

namespace Inherited

variable (hP : Inherited P)
include hP

theorem endUse_error {reason : Incident} (h : P reason) (u : Use) (c : Connection) :
    ∀ e ∈ (c.endUse u (.error reason)).1.error?, P e := by
  cases u with
  | work =>
    rintro e ⟨⟩
    exact h
  | query r =>
    rw [endUse_query_error]
    rintro e ⟨⟩
    exact hP.classify c.target r.text h

theorem endUse {outcome : Except Incident (List Value)}
    (houtcome : ∀ e, outcome = .error e → P e) (u : Use) (c : Connection) :
    ∀ e ∈ (c.endUse u outcome).1.error?, P e := by
  cases outcome with
  | ok rows => cases u <;> rintro e ⟨⟩
  | error reason => exact hP.endUse_error (houtcome reason rfl) u c

theorem failGoal {reason : Incident} (h : P reason) (goal : Goal) (c : Connection) :
    ∀ e ∈ (c.failGoal goal reason).1.error?, P e := by
  cases goal with
  | connect =>
    rintro e ⟨⟩
    exact h
  | session u => exact hP.endUse_error h u c

/-- Where a driver is held a session is opened on it. -/
theorem proceed {prompt : Prompt} (hprompt : ∀ e ∈ prompt.raised, P e) (goal : Goal)
    {c : Connection} (hheld : c.held.isSome) : ∀ e ∈ (c.proceed goal prompt).1.error?, P e := by
  cases goal with
  | connect => rintro e ⟨⟩
  | session u =>
    obtain ⟨driver, hdriver⟩ := Option.isSome_iff_exists.1 hheld
    simp only [Connection.proceed, hdriver, openSession]
    split
    · rename_i reason hopening
      exact hP.endUse_error (hprompt reason (by simp [Prompt.raised, hopening])) u _
    · rintro e ⟨⟩

theorem connectFor {prompt : Prompt} (hprompt : ∀ e ∈ prompt.raised, P e) (goal : Goal)
    (c : Connection) : ∀ e ∈ (c.connectFor goal prompt).1.error?, P e := by
  rw [Connection.connectFor]
  split
  · exact hP.proceed hprompt goal ‹_›
  · simp only [buildDriver]
    split
    · rename_i reason hconstruction
      exact hP.failGoal (hprompt reason (by simp [Prompt.raised, hconstruction])) goal _
    · rintro e ⟨⟩

theorem start {prompt : Prompt} (hprompt : ∀ e ∈ prompt.raised, P e) (op : Operation)
    (c : Connection) : ∀ e ∈ (c.start op prompt).1.error?, P e := by
  cases hgoal : op.goal? with
  | some goal =>
    rw [start_of_goal hgoal]
    exact hP.connectFor hprompt goal _
  | none =>
    cases op with
    | connect | session | run r => cases hgoal
    | close =>
      rw [Connection.start, startClose]
      split <;> rintro e ⟨⟩
    | misuse argument params =>
      have hpass : (c.start (.misuse argument params) prompt).1 = .finished (.error
          (Fault.missingAttribute argument.fullTypeName "to_cypher").incident) := rfl
      rw [hpass]
      rintro e ⟨⟩
      exact hP.fault _

theorem resume {p : Phase} (hp : ∀ e ∈ (Progress.waiting p).error?, P e) {reply : Reply}
    (hreply : ∀ e ∈ reply.raised, P e) {prompt : Prompt} (hprompt : ∀ e ∈ prompt.raised, P e)
    (c : Connection) : ∀ e ∈ (c.resume p reply prompt).1.error?, P e := by
  have hraised {e : Incident} (h : reply = .failed e) : P e := hreply e (by simp [h, Reply.raised])
  have hnone {q : Phase} (hq : (Progress.waiting q).error? = none) :
      ∀ e ∈ (Progress.waiting q).error?, P e := by
    rw [hq]
    rintro e ⟨⟩
  cases p with
  | verifying driver goal =>
    cases reply with
    | failed e =>
      rintro e' ⟨⟩
      exact hraised rfl
    | done | row v => exact hP.proceed hprompt goal rfl
  | discarding driver goal reason =>
    cases reply with
    | failed e => exact hP.failGoal (hraised rfl) goal c
    | done | row v => exact hP.failGoal (hp reason rfl) goal c
  | closing driver =>
    cases reply with
    | failed e =>
      rintro e' ⟨⟩
      exact hraised rfl
    | done | row v => rintro e ⟨⟩
  | entering u =>
    cases reply with
    | failed e => cases u <;> exact hP.endUse_error (hraised rfl) _ c
    | done | row v => cases u <;> exact hnone rfl
  | working =>
    cases reply with
    | failed e => exact error?_leave (hraised rfl) _ c
    | row v => exact hnone rfl
    | done => exact hnone rfl
  | sending r =>
    cases reply with
    | failed e => exact error?_leave (hraised rfl) _ c
    | done | row v => exact hnone rfl
  | reading r rows =>
    cases reply with
    | failed e => exact error?_leave (hraised rfl) _ c
    | done => exact hnone rfl
    | row v =>
      rw [Connection.resume.eq_def]
      simp only
      split
      · exact hnone rfl
      · exact error?_leave (hP.fault _) _ c
  | leaving u outcome =>
    have houtcome (e : Incident) (h : outcome = .error e) : P e := hp e (by rw [h]; rfl)
    cases reply with
    | failed e => exact hP.endUse_error (hraised rfl) u c
    | done | row v => exact hP.endUse houtcome u c

/-! ## Tasks that take turns -/

theorem move {s : Crowd} (hs : ∀ p ∈ s.tasks, ∀ e ∈ p.error?, P e) {m : Move}
    (hm : ∀ e ∈ m.raised, P e) : ∀ p ∈ (s.move m).tasks, ∀ e ∈ p.error?, P e := by
  intro p hp
  cases m with
  | start op prompt =>
    obtain hold | hnew := List.mem_append.1 hp
    · exact hs p hold
    · rw [List.mem_singleton.1 hnew]
      exact hP.start hm op s.connection
  | resume task reply prompt =>
    cases hphase : s.phase? task with
    | none =>
      rw [Crowd.move, hphase] at hp
      exact hs p hp
    | some q =>
      rw [Crowd.move, hphase] at hp
      obtain hold | hnew := List.mem_or_eq_of_mem_set hp
      · exact hs p hold
      · rw [hnew]
        have hq := hs _ (List.mem_of_getElem? (Crowd.getElem?_of_phase? hphase))
        exact hP.resume hq (fun e he => hm e (List.mem_append_left _ he))
          (fun e he => hm e (List.mem_append_right _ he)) s.connection

theorem foldl {s : Crowd} (hs : ∀ p ∈ s.tasks, ∀ e ∈ p.error?, P e) {moves : List Move}
    (hmoves : ∀ m ∈ moves, ∀ e ∈ m.raised, P e) :
    ∀ p ∈ (moves.foldl Crowd.move s).tasks, ∀ e ∈ p.error?, P e := by
  induction moves generalizing s with
  | nil => exact hs
  | cons m moves ih =>
    obtain ⟨hm, hmoves⟩ := List.forall_mem_cons.1 hmoves
    exact ih (hP.move hs hm) hmoves

end Inherited

/-- No fault is that of a session without a driver, and no failure is made of it. -/
theorem inherited_ne_noDriver : Inherited (· ≠ noDriver) where
  fault fault := by
    cases fault <;> simp [Fault.incident, Fault.name, noDriver]
  classify target text e he := by
    cases e with
    | failure f cause => exact he
    | outside e =>
      rw [classified]
      split
      · rintro ⟨⟩
      · rintro ⟨⟩
      · exact he

namespace Crowd

/-! ## Drivers that are past their check -/

theorem run_append (target : Target) (moves others : List Move) :
    run target (moves ++ others) = others.foldl move (run target moves) :=
  List.foldl_append

theorem mem_closings_foldl {s : Crowd} {driver : Nat} (h : driver ∈ s.drivers.closings)
    (moves : List Move) : driver ∈ (moves.foldl move s).drivers.closings := by
  induction moves generalizing s with
  | nil => exact h
  | cons m moves ih =>
    obtain ⟨_, _, _, -, -, hturn⟩ := s.move_turn m
    exact ih (hturn.closings_isPrefix.mem h)

/-- A driver that was built and is not being checked is checked no more. -/
theorem not_mem_checking_foldl {s : Crowd} {lost : List Nat}
    (hplaced : s.drivers.Placed s.checking lost) {driver : Nat}
    (hcreated : driver ∈ s.drivers.created) (h : driver ∉ s.checking) (moves : List Move) :
    driver ∉ (moves.foldl move s).checking := by
  induction moves generalizing s lost with
  | nil => exact h
  | cons m moves ih =>
    obtain ⟨before, after, others, hbefore, hafter, hturn⟩ := s.move_turn m
    refine ih (placed_move hplaced m) (hturn.created_isPrefix.mem hcreated) fun hmem => ?_
    obtain hbuilt | hother := List.mem_append.1 (hafter.mem_iff.1 hmem)
    · rw [Option.mem_toList] at hbuilt
      rw [Option.mem_def.1 hbuilt] at hturn
      rw [hturn.eq_of_builds] at hcreated
      exact hplaced.fresh hcreated
    · exact h (hbefore.mem_iff.2 (List.mem_append_right _ hother))

/-- The check of a driver fails as a task goes on. -/
theorem mem_closings_of_failed {s : Crowd} {task driver : Nat} {goal : Goal}
    (hphase : s.phase? task = some (.verifying driver goal)) (e : Incident) (prompt : Prompt) :
    driver ∈ (s.move (.resume task (.failed e) prompt)).drivers.closings := by
  have hclosed : (s.move (.resume task (.failed e) prompt)).drivers = s.drivers.close driver := by
    rw [drivers, move, hphase]
    exact drivers_close driver s.connection
  rw [hclosed]
  exact List.mem_append_right _ (List.mem_singleton_self driver)

theorem mem_checking {s : Crowd} {task driver : Nat} {goal : Goal}
    (hphase : s.phase? task = some (.verifying driver goal)) : driver ∈ s.checking :=
  List.mem_filterMap.2 ⟨_, List.mem_of_getElem? (getElem?_of_phase? hphase), rfl⟩

/-- The held driver was built, is not being checked and was not closed. -/
theorem of_held {target : Target} {moves : List Move} {driver : Nat}
    (h : (run target moves).connection.held = some driver) :
    driver ∈ (run target moves).drivers.created ∧ driver ∉ (run target moves).checking ∧
      driver ∉ (run target moves).drivers.closings := by
  have hcount := (placed_run target moves).count driver
  have hheld : (run target moves).drivers.held.toList.count driver = 1 := by
    simp [drivers, Connection.drivers, h]
  rw [← List.count_eq_zero, ← List.count_eq_zero]
  split at hcount
  · exact ⟨‹_›, by omega, by omega⟩
  · omega

/-- A driver is held neither before nor after its check fails. -/
theorem not_held_of_failed (target : Target) (before : List Move) {task driver : Nat} {goal : Goal}
    (hphase : (run target before).phase? task = some (.verifying driver goal)) (e : Incident)
    (prompt : Prompt) (after : List Move) (n : Nat) :
    (run target ((before ++ .resume task (.failed e) prompt :: after).take n)).connection.held ≠
      some driver := by
  intro hheld
  obtain ⟨hcreated, hchecking, hclosings⟩ := of_held hheld
  rw [List.take_append] at hcreated hchecking hclosings
  rcases Nat.lt_or_ge before.length n with hlater | hearlier
  · -- the failed check is among the first moves, and a closed driver stays closed
    obtain ⟨k, hk⟩ := Nat.exists_eq_add_of_lt hlater
    refine hclosings ?_
    rw [List.take_of_length_le hlater.le, run_append,
      show n - before.length = k + 1 by omega, List.take_succ_cons]
    exact mem_closings_foldl (mem_closings_of_failed hphase e prompt) _
  · -- the check is still to come, but the driver is past it
    rw [Nat.sub_eq_zero_of_le hearlier, List.take_zero, List.append_nil] at hcreated hchecking
    have hlast := not_mem_checking_foldl (placed_run target (before.take n)) hcreated hchecking
      (before.drop n)
    rw [← run_append, List.take_append_drop] at hlast
    exact hlast (mem_checking hphase)

end Crowd

/-- However tasks take turns on a connection, none ends with the error of a session that finds no
driver unless this error came from outside, no driver is closed twice, and a driver whose check
failed is held at no time. -/
theorem tasks_safe (target : Target) (moves : List Move) :
    ((∀ m ∈ moves, noDriver ∉ m.raised) →
      ∀ task : Nat, (Crowd.run target moves).tasks[task]? ≠ some (.finished (.error noDriver))) ∧
    (Crowd.run target moves).drivers.closings.Nodup ∧
    ∀ (before after : List Move) (task driver : Nat) (goal : Goal) (e : Incident) (prompt : Prompt),
      moves = before ++ .resume task (.failed e) prompt :: after →
      (Crowd.run target before).phase? task = some (.verifying driver goal) →
      ∀ n, (Crowd.run target (moves.take n)).connection.held ≠ some driver := by
  refine ⟨fun hraised task hfinished => ?_, ?_, ?_⟩
  · have hmoves (m : Move) (hm : m ∈ moves) (e : Incident) (he : e ∈ m.raised) : e ≠ noDriver :=
      ne_of_mem_of_not_mem he (hraised m hm)
    have hnew : ∀ p ∈ (Crowd.new target).tasks, ∀ e ∈ p.error?, e ≠ noDriver := by rintro p ⟨⟩
    have herrors := inherited_ne_noDriver.foldl hnew hmoves
    exact herrors _ (List.mem_of_getElem? hfinished) noDriver rfl rfl
  · rw [List.nodup_iff_count_le_one]
    intro driver
    have hcount := (Crowd.placed_run target moves).count driver
    split at hcount <;> omega
  · rintro before after task driver goal e prompt rfl hphase n
    exact Crowd.not_held_of_failed target before hphase e prompt after n

def refused : Incident := .outside ⟨"ServiceUnavailable", "refused", .unavailable⟩

/-- Two tasks connect for their sessions at the same time and one of them fails; while the other
enters its session two more tasks close. -/
def rush : List Move :=
  [.start .session {}, .start (.run ⟨"RETURN 1", .map [], .text "RETURN 1"⟩) {},
   .resume 0 (.failed refused) {}, .resume 1 .done {}, .start .close {}, .start .close {},
   .resume 0 .done {}, .resume 2 .done {}]

theorem rush_safe : (∀ m ∈ rush, noDriver ∉ m.raised) ∧
    (Crowd.run localTarget rush).tasks[0]? ≠ some (.finished (.error noDriver)) ∧
    (Crowd.run localTarget rush).drivers.closings.Nodup ∧
    (Crowd.run localTarget [.start .session {},
      .start (.run ⟨"RETURN 1", .map [], .text "RETURN 1"⟩) {}]).phase? 0 =
        some (.verifying 1 (.session .work)) ∧
    (Crowd.run localTarget (rush.take 5)).connection.held ≠ some 1 := by
  have hraised : ∀ m ∈ rush, noDriver ∉ m.raised := by
    simp [rush, Move.raised, Reply.raised, Prompt.raised, refused, noDriver]
  obtain ⟨hends, hnodup, hheld⟩ := tasks_safe localTarget rush
  exact ⟨hraised, hends hraised 0, hnodup, rfl,
    hheld (rush.take 2) (rush.drop 3) 0 1 (.session .work) refused {} rfl rfl 5⟩

end GraphQuery.Connection
