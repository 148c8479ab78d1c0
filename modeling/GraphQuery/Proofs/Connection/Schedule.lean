import GraphQuery.Proofs.Connection.Drivers

/-!
# Tasks that share a connection

Any number of tasks use one connection. Each runs undisturbed from one point where it waits to the
next; at these points they take turns in any order, and the database replies anything. A driver
that is neither held nor closed when all tasks are over was displaced: another task stored its own
driver while this one was held.
-/
namespace GraphQuery.Connection

/-- A task begins, or goes on from where it waits. -/
inductive Move where
  | start (op : Operation) (prompt : Prompt)
  | resume (task : Nat) (reply : Reply) (prompt : Prompt)

/-- A connection and the tasks on it, in the order in which they began. -/
structure Crowd where
  connection : Connection
  tasks : List Progress

namespace Crowd

def new (target : Target) : Crowd := ⟨Connection.new target, []⟩

def phase? (s : Crowd) (task : Nat) : Option Phase :=
  match s.tasks[task]? with
  | some (.waiting p) => some p
  | _ => none

/-- A task that is over, or that never began, does not go on. -/
def move (s : Crowd) : Move → Crowd
  | .start op prompt =>
    let (progress, c) := s.connection.start op prompt
    ⟨c, s.tasks ++ [progress]⟩
  | .resume task reply prompt =>
    match s.phase? task with
    | some p =>
      let (progress, c) := s.connection.resume p reply prompt
      ⟨c, s.tasks.set task progress⟩
    | none => s

def run (target : Target) (moves : List Move) : Crowd := moves.foldl move (new target)

def drivers (s : Crowd) : Drivers := s.connection.drivers

/-- The drivers that tasks are checking. -/
def checking (s : Crowd) : List Nat := s.tasks.filterMap Progress.checking?

/-- The driver that is held when a move makes a task store another one. -/
def displaced? (s : Crowd) : Move → Option Nat
  | .start _ _ => none
  | .resume task reply _ => (s.phase? task).bind fun p => s.connection.displaced? p reply

def displacedBy (s : Crowd) : List Move → List Nat
  | [] => []
  | m :: moves => (s.displaced? m).toList ++ (s.move m).displacedBy moves

def isOver (s : Crowd) : Bool :=
  s.tasks.all fun p => match p with
    | .finished _ => true
    | .waiting _ => false

/-! ## One move -/

theorem getElem?_of_phase? {s : Crowd} {task : Nat} {p : Phase} (h : s.phase? task = some p) :
    s.tasks[task]? = some (.waiting p) := by
  rw [phase?] at h
  split at h
  · cases h
    assumption
  · cases h

theorem checking_cons (p : Progress) (tasks : List Progress) :
    (p :: tasks).filterMap Progress.checking? =
      p.checking?.toList ++ tasks.filterMap Progress.checking? := by
  rw [List.filterMap_cons]
  cases p.checking? <;> rfl

/-- The other tasks check what they did when one of them goes on. -/
theorem checking_set_perm {tasks : List Progress} {task : Nat} {p : Progress}
    (h : tasks[task]? = some p) (next : Progress) : ∃ others,
      (tasks.filterMap Progress.checking?).Perm (p.checking?.toList ++ others) ∧
        ((tasks.set task next).filterMap Progress.checking?).Perm
          (next.checking?.toList ++ others) := by
  obtain ⟨hlt, rfl⟩ := List.getElem?_eq_some_iff.1 h
  have hsplit : tasks = tasks.take task ++ tasks[task] :: tasks.drop (task + 1) := by
    rw [← List.drop_eq_getElem_cons hlt, List.take_append_drop]
  have hset : tasks.set task next = tasks.take task ++ next :: tasks.drop (task + 1) := by
    rw [List.set_eq_take_append_cons_drop, if_pos hlt]
  refine ⟨(tasks.take task ++ tasks.drop (task + 1)).filterMap Progress.checking?, ?_, ?_⟩
  · rw [← checking_cons]
    exact ((List.Perm.of_eq hsplit).trans List.perm_middle).filterMap _
  · rw [← checking_cons, hset]
    exact List.perm_middle.filterMap _

/-- A move is a turn of one task, and the others check what they did. -/
theorem move_turn (s : Crowd) (m : Move) : ∃ before after others,
    s.checking.Perm (before.toList ++ others) ∧
      (s.move m).checking.Perm (after.toList ++ others) ∧
      Turn s.drivers before after (s.displaced? m) (s.move m).drivers := by
  cases m with
  | start op prompt =>
    refine ⟨none, _, s.checking, .refl _, ?_, start_turn op prompt s.connection⟩
    rw [checking, move, List.filterMap_append]
    exact List.perm_append_comm.trans (.of_eq (by rw [checking_cons]; simp [checking]))
  | resume task reply prompt =>
    cases hphase : s.phase? task with
    | none =>
      refine ⟨none, none, s.checking, .refl _, ?_, ?_⟩
      · simp [move, hphase]
      · simp only [displaced?, move, hphase]
        exact .nothing
    | some p =>
      obtain ⟨others, hbefore, hafter⟩ := checking_set_perm (getElem?_of_phase? hphase)
        (s.connection.resume p reply prompt).1
      have hmove : s.move (.resume task reply prompt) =
          ⟨(s.connection.resume p reply prompt).2,
            s.tasks.set task (s.connection.resume p reply prompt).1⟩ := by
        rw [move, hphase]
      have hgone : s.displaced? (.resume task reply prompt) = s.connection.displaced? p reply := by
        rw [displaced?, hphase, Option.bind_some]
      rw [hmove, hgone]
      exact ⟨_, _, others, hbefore, hafter, resume_turn p reply prompt s.connection⟩

theorem placed_move {s : Crowd} {lost : List Nat} (h : s.drivers.Placed s.checking lost)
    (m : Move) :
    (s.move m).drivers.Placed (s.move m).checking (lost ++ (s.displaced? m).toList) := by
  obtain ⟨before, after, others, hbefore, hafter, hturn⟩ := s.move_turn m
  exact h.turn hturn hbefore hafter

/-! ## Runs -/

theorem placed_foldl {s : Crowd} {lost : List Nat} (h : s.drivers.Placed s.checking lost)
    (moves : List Move) : (moves.foldl move s).drivers.Placed (moves.foldl move s).checking
      (lost ++ s.displacedBy moves) := by
  induction moves generalizing s lost with
  | nil => simpa [displacedBy] using h
  | cons m moves ih =>
    rw [displacedBy, ← List.append_assoc]
    exact ih (placed_move h m)

/-- Every driver that was built is checked by one task, held, closed once, or was displaced. -/
theorem placed_run (target : Target) (moves : List Move) :
    (run target moves).drivers.Placed (run target moves).checking
      ((new target).displacedBy moves) := by
  have hnew : (new target).drivers.Placed (new target).checking [] := .new
  exact placed_foldl hnew moves

theorem checking_eq_nil {s : Crowd} (h : s.isOver = true) : s.checking = [] := by
  rw [checking, List.filterMap_eq_nil_iff]
  intro p hp
  have hover := List.all_eq_true.1 h p hp
  cases p with
  | finished outcome => rfl
  | waiting p => cases hover

/-- Where at most one task checks a driver and none is held meanwhile, a turn displaces none. -/
theorem alone_turn {x y : Drivers} {before after gone : Option Nat} {others : List Nat}
    (h : Turn x before after gone y) (hlength : (before.toList ++ others).length ≤ 1)
    (hheld : before.toList ++ others ≠ [] → x.held = none) :
    gone = none ∧ (after.toList ++ others ≠ [] → y.held = none) := by
  cases h with
  | nothing => exact ⟨rfl, hheld⟩
  | builds h => exact ⟨rfl, fun _ => h⟩
  | releases h => exact ⟨rfl, fun _ => rfl⟩
  | stores driver =>
    have hothers : others = [] := List.eq_nil_of_length_eq_zero (by simpa using hlength)
    exact ⟨hheld (List.cons_ne_nil _ _), fun h => absurd hothers h⟩
  | discards driver => exact ⟨rfl, fun _ => hheld (List.cons_ne_nil _ _)⟩

/-- As long as no two tasks check their drivers at the same time, none is displaced. -/
theorem displacedBy_eq_nil {s : Crowd} (moves : List Move)
    (hheld : s.checking ≠ [] → s.drivers.held = none)
    (halone : ∀ n, ((moves.take n).foldl move s).checking.length ≤ 1) :
    s.displacedBy moves = [] := by
  induction moves generalizing s with
  | nil => rfl
  | cons m moves ih =>
    obtain ⟨before, after, others, hbefore, hafter, hturn⟩ := s.move_turn m
    have hlength : (before.toList ++ others).length ≤ 1 := by
      rw [← hbefore.length_eq]
      exact halone 0
    obtain ⟨hnone, hnext⟩ := alone_turn hturn hlength fun hne =>
      hheld fun hnil => hne (List.nil_perm.1 (hnil ▸ hbefore))
    rw [displacedBy, hnone]
    exact ih (fun hne => hnext fun hnil => hne (List.perm_nil.1 (hnil ▸ hafter)))
      fun n => halone (n + 1)

end Crowd

/-- When all tasks are over, the drivers that are open and not held are those that were displaced:
one was held when another task, which had begun to connect while none was, ended its own check
well. None is as long as no two tasks check their drivers at the same time. -/
theorem open_iff_displaced {target : Target} {moves : List Move}
    (h : (Crowd.run target moves).isOver = true) :
    (∀ driver, driver ∈ (Crowd.run target moves).drivers.created ∧
        (Crowd.run target moves).connection.held ≠ some driver ∧
        driver ∉ (Crowd.run target moves).drivers.closings ↔
      driver ∈ (Crowd.new target).displacedBy moves) ∧
    ((∀ n, (Crowd.run target (moves.take n)).checking.length ≤ 1) →
      (Crowd.new target).displacedBy moves = []) := by
  refine ⟨fun driver => ?_, Crowd.displacedBy_eq_nil moves (fun hne => absurd rfl hne)⟩
  have hcount := (Crowd.placed_run target moves).count driver
  rw [Crowd.checking_eq_nil h, List.count_nil, Nat.add_zero] at hcount
  have hheld : (Crowd.run target moves).drivers.held.toList.count driver = 0 ↔
      (Crowd.run target moves).connection.held ≠ some driver := by
    simp [List.count_eq_zero, Crowd.drivers, drivers]
  have hlost : 0 < ((Crowd.new target).displacedBy moves).count driver ↔
      driver ∈ (Crowd.new target).displacedBy moves := List.count_pos_iff
  rw [← hheld, ← List.count_eq_zero, ← hlost]
  constructor
  · rintro ⟨hcreated, hheld, hclosed⟩
    rw [if_pos hcreated] at hcount
    omega
  · intro hdisplaced
    split at hcount
    · exact ⟨‹_›, by omega, by omega⟩
    · omega

/-- Every driver was closed but for the held one. -/
def Crowd.Released (s : Crowd) : Prop :=
  ∀ driver ∈ s.drivers.created, s.connection.held = some driver ∨ driver ∈ s.drivers.closings

/-- Two tasks connect at the same time, and a third closes when they are over. -/
def crossing : List Move :=
  [.start .connect {}, .start .connect {}, .resume 0 .done {}, .resume 1 .done {},
   .start .close {}, .resume 2 .done {}]

theorem crossing_leaves_open : (Crowd.run localTarget crossing).isOver = true ∧
    (Crowd.run localTarget crossing).connection.held ≠ some 1 ∧
    1 ∉ (Crowd.run localTarget crossing).drivers.closings := by
  have hover : (Crowd.run localTarget crossing).isOver = true := rfl
  exact ⟨hover, (((open_iff_displaced hover).1 1).2 (by decide)).2⟩

theorem crossing_not_released : ¬ ∀ (target : Target) (moves : List Move),
    (Crowd.run target moves).isOver = true → (Crowd.run target moves).Released := by
  intro h
  have hreleased := h localTarget crossing rfl 1 (by decide)
  revert hreleased
  decide

end GraphQuery.Connection
