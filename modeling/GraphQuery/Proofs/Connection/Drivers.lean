import GraphQuery.Connection.Task
import Mathlib.Data.List.Range
import Mathlib.Data.List.Perm.Basic

/-!
# The drivers of a connection

Between two points where it waits a task builds a driver, stores the one it has checked, closes
that one, closes the held one, or does nothing to the drivers. So every driver that was built is at
one place: still being checked, held, closed, or displaced by another that was stored over it.
-/
namespace GraphQuery.Connection

/-- A driver is checked as soon as it is built. -/
def Signal.created? : Signal → Option Nat
  | .verify driver => some driver
  | _ => none

def Signal.closing? : Signal → Option Nat
  | .close driver => some driver
  | _ => none

/-- What a connection knows of its drivers, with those it has built and closed in their order. -/
structure Drivers where
  built : Nat
  created : List Nat
  held : Option Nat
  closings : List Nat

def drivers (c : Connection) : Drivers :=
  ⟨c.built, c.signals.filterMap Signal.created?, c.held, c.signals.filterMap Signal.closing?⟩

theorem drivers_signal (s : Signal) (c : Connection) :
    (c.signal s).drivers = { c.drivers with
      created := c.drivers.created ++ s.created?.toList
      closings := c.drivers.closings ++ s.closing?.toList } := by
  cases s <;> simp [drivers, signal, Signal.created?, Signal.closing?]

theorem drivers_signal_of_quiet {s : Signal} (hcreated : s.created? = none)
    (hclosing : s.closing? = none) (c : Connection) : (c.signal s).drivers = c.drivers := by
  simp [drivers_signal, hcreated, hclosing]

/-- The driver whose connectivity a task waits for. -/
def Progress.checking? : Progress → Option Nat
  | .waiting (.verifying driver _) => some driver
  | _ => none

/-! ## What the steps do to the drivers -/

/-- A task has no driver to check afterwards and leaves the drivers as they are. -/
def Passive (c : Connection) (next : Progress × Connection) : Prop :=
  next.1.checking? = none ∧ next.2.drivers = c.drivers

theorem Passive.of_drivers_eq {c c' : Connection} {next : Progress × Connection}
    (h : Passive c' next) (hc : c'.drivers = c.drivers) : Passive c next := ⟨h.1, h.2.trans hc⟩

theorem endUse_passive (u : Use) (outcome : Except Incident (List Value)) (c : Connection) :
    Passive c (c.endUse u outcome) := by
  cases u with
  | work => exact ⟨rfl, rfl⟩
  | query r => cases outcome <;> exact ⟨rfl, rfl⟩

theorem failGoal_passive (goal : Goal) (e : Incident) (c : Connection) :
    Passive c (c.failGoal goal e) := by
  cases goal with
  | connect => exact ⟨rfl, rfl⟩
  | session u => exact endUse_passive u _ c

theorem openSession_passive (driver : Nat) (u : Use) (prompt : Prompt) (c : Connection) :
    Passive c (c.openSession driver u prompt) := by
  have hopened : (c.signal (.openSession driver c.target.database)).drivers = c.drivers :=
    drivers_signal_of_quiet rfl rfl c
  rw [openSession]
  split
  · exact (endUse_passive u _ _).of_drivers_eq hopened
  · exact ⟨rfl, (drivers_signal_of_quiet rfl rfl _).trans hopened⟩

theorem proceed_passive (goal : Goal) (prompt : Prompt) (c : Connection) :
    Passive c (c.proceed goal prompt) := by
  cases goal with
  | connect => exact ⟨rfl, rfl⟩
  | session u =>
    rw [proceed]
    split
    · exact openSession_passive _ u prompt c
    · exact endUse_passive u _ c

theorem leave_passive (u : Use) (outcome : Except Incident (List Value)) (c : Connection) :
    Passive c (c.leave u outcome) := ⟨rfl, drivers_signal_of_quiet rfl rfl c⟩

/-- Only a task that checks a driver does something to the drivers when it goes on. -/
theorem resume_passive {p : Phase} (h : (Progress.waiting p).checking? = none) (reply : Reply)
    (prompt : Prompt) (c : Connection) : Passive c (c.resume p reply prompt) := by
  have hstays {q : Phase} (hq : (Progress.waiting q).checking? = none) :
      Passive c (.waiting q, c) := ⟨hq, rfl⟩
  cases p with
  | verifying driver goal => cases h
  | discarding driver goal reason => cases reply <;> exact failGoal_passive goal _ c
  | closing driver => cases reply <;> exact ⟨rfl, rfl⟩
  | entering u =>
    cases u with
    | work =>
      cases reply with
      | failed e => exact endUse_passive .work _ c
      | done | row v => exact hstays rfl
    | query r =>
      cases reply with
      | failed e => exact endUse_passive (.query r) _ c
      | done | row v => exact ⟨rfl, drivers_signal_of_quiet rfl rfl c⟩
  | working =>
    cases reply with
    | row v => exact hstays rfl
    | done | failed e => exact leave_passive .work _ c
  | sending r =>
    cases reply with
    | failed e => exact leave_passive (.query r) _ c
    | done | row v => exact hstays rfl
  | reading r rows =>
    cases reply with
    | done | failed e => exact leave_passive (.query r) _ c
    | row v =>
      rw [resume.eq_def]
      simp only
      split
      · exact hstays rfl
      · exact leave_passive (.query r) _ c
  | leaving u outcome => cases reply <;> exact endUse_passive u _ c

/-- A reply that is no error. -/
def Reply.isGood : Reply → Bool
  | .failed _ => false
  | _ => true

theorem Reply.eq_failed {reply : Reply} (h : reply.isGood = false) : ∃ e, reply = .failed e := by
  cases reply with
  | failed e => exact ⟨e, rfl⟩
  | done | row v => cases h

theorem resume_good (driver : Nat) (goal : Goal) {reply : Reply} (h : reply.isGood)
    (prompt : Prompt) (c : Connection) :
    c.resume (.verifying driver goal) reply prompt = (c.hold driver).proceed goal prompt := by
  cases reply with
  | failed e => cases h
  | done | row v => rfl

/-- Operations that begin with connecting, and what they connect for. -/
def Operation.goal? : Operation → Option Goal
  | .connect => some .connect
  | .session => some (.session .work)
  | .run r => some (.session (.query r))
  | .close | .misuse _ _ => none

/-- The connection as an operation finds it when it begins to connect. -/
def announced (op : Operation) (c : Connection) : Connection :=
  match op with
  | .run r => c.announce r
  | _ => c

theorem start_of_goal {op : Operation} {goal : Goal} (h : op.goal? = some goal) (prompt : Prompt)
    (c : Connection) : c.start op prompt = (c.announced op).connectFor goal prompt := by
  cases op <;> cases h <;> rfl

@[simp] theorem drivers_announced (op : Operation) (c : Connection) :
    (c.announced op).drivers = c.drivers := by
  cases op <;> rfl

@[simp] theorem held_announced (op : Operation) (c : Connection) :
    (c.announced op).held = c.held := congrArg Drivers.held (drivers_announced op c)

@[simp] theorem built_announced (op : Operation) (c : Connection) :
    (c.announced op).built = c.built := congrArg Drivers.built (drivers_announced op c)

@[simp] theorem target_announced (op : Operation) (c : Connection) :
    (c.announced op).target = c.target := by
  cases op <;> rfl

/-- The next driver is built. -/
def Drivers.build (x : Drivers) : Drivers :=
  { x with built := x.built + 1, created := x.created ++ [x.built + 1] }

def Drivers.close (driver : Nat) (x : Drivers) : Drivers :=
  { x with closings := x.closings ++ [driver] }

theorem drivers_close (driver : Nat) (c : Connection) :
    (c.signal (.close driver)).drivers = c.drivers.close driver := by
  simp [drivers_signal, Signal.created?, Signal.closing?, Drivers.close]

section Connecting

variable {op : Operation} {goal : Goal} {prompt : Prompt} {c : Connection}

/-- Where a driver is held nothing is built. -/
theorem start_of_held (hgoal : op.goal? = some goal) (hheld : c.held.isSome) (prompt : Prompt) :
    Passive c (c.start op prompt) := by
  rw [start_of_goal hgoal, connectFor, held_announced, if_pos hheld]
  exact (proceed_passive goal prompt _).of_drivers_eq (drivers_announced op c)

theorem start_of_construction (hgoal : op.goal? = some goal) (hheld : c.held = none)
    {e : Incident} (hprompt : prompt.construction = some e) :
    ∃ c' : Connection, c'.drivers = c.drivers ∧ c.start op prompt = c'.failGoal goal e := by
  refine ⟨(c.announced op).signal (.build c.target.uri c.target.username c.target.password),
    (drivers_signal_of_quiet rfl rfl _).trans (drivers_announced op c), ?_⟩
  rw [start_of_goal hgoal]
  simp [connectFor, buildDriver, hheld, hprompt]

/-- Where none is held a driver is built and its check begins. -/
theorem connectFor_of_built (goal : Goal) (hheld : c.held = none)
    (hprompt : prompt.construction = none) :
    (c.connectFor goal prompt).1 = .waiting (.verifying (c.built + 1) goal) ∧
      (c.connectFor goal prompt).2.drivers = c.drivers.build := by
  have hbuilds : c.connectFor goal prompt = (.waiting (.verifying (c.built + 1) goal),
      ({ c with built := c.built + 1 }.signal
        (.build c.target.uri c.target.username c.target.password)).signal
          (.verify (c.built + 1))) := by
    simp [connectFor, buildDriver, hheld, hprompt, signal]
  rw [hbuilds]
  refine ⟨rfl, ?_⟩
  rw [drivers_signal, drivers_signal]
  simp [Signal.created?, Signal.closing?, Drivers.build, drivers]

theorem start_of_built (hgoal : op.goal? = some goal) (hheld : c.held = none)
    (hprompt : prompt.construction = none) :
    (c.start op prompt).1 = .waiting (.verifying (c.built + 1) goal) ∧
      (c.start op prompt).2.drivers = c.drivers.build := by
  have hheld' : (c.announced op).held = none := (held_announced op c).trans hheld
  obtain ⟨hwaits, hdrivers⟩ := connectFor_of_built goal hheld' hprompt
  rw [start_of_goal hgoal, hwaits, hdrivers, built_announced, drivers_announced]
  exact ⟨rfl, rfl⟩

end Connecting

/-- What a task does to the drivers between two points where it waits, with the driver that it
has been checking, the one that it checks from then on, and the one that it displaces. -/
inductive Turn (x : Drivers) : Option Nat → Option Nat → Option Nat → Drivers → Prop where
  | nothing : Turn x none none none x
  | builds (h : x.held = none) : Turn x none (some (x.built + 1)) none x.build
  | releases {driver : Nat} (h : x.held = some driver) :
    Turn x none none none { x.close driver with held := none }
  | stores (driver : Nat) : Turn x (some driver) none x.held { x with held := some driver }
  | discards (driver : Nat) : Turn x (some driver) none none (x.close driver)

theorem Passive.turn {c : Connection} {next : Progress × Connection} (h : Passive c next) :
    Turn c.drivers none next.1.checking? none next.2.drivers := by
  rw [h.1, h.2]
  exact .nothing

theorem startClose_turn (c : Connection) :
    Turn c.drivers none c.startClose.1.checking? none c.startClose.2.drivers := by
  cases hheld : c.held with
  | none =>
    have hnothing : c.startClose = (.finished (.ok .null), c) := by rw [startClose, hheld]
    rw [hnothing]
    exact .nothing
  | some driver =>
    have hcloses : c.startClose = (.waiting (.closing driver),
        ({ c with held := none } : Connection).signal (.close driver)) := by
      rw [startClose, hheld]
    rw [hcloses, drivers_close]
    exact .releases hheld

theorem start_turn (op : Operation) (prompt : Prompt) (c : Connection) :
    Turn c.drivers none (c.start op prompt).1.checking? none (c.start op prompt).2.drivers := by
  cases hgoal : op.goal? with
  | none =>
    cases op with
    | connect | session | run r => cases hgoal
    | close => exact startClose_turn c
    | misuse argument params => exact .nothing
  | some goal =>
    cases hheld : c.held with
    | some driver => exact (start_of_held hgoal (by rw [hheld]; rfl) prompt).turn
    | none =>
      cases hprompt : prompt.construction with
      | some e =>
        obtain ⟨c', hdrivers, hfails⟩ := start_of_construction hgoal hheld hprompt
        rw [hfails]
        exact ((failGoal_passive goal e c').of_drivers_eq hdrivers).turn
      | none =>
        obtain ⟨hwaits, hdrivers⟩ := start_of_built hgoal hheld hprompt
        rw [hwaits, hdrivers]
        exact .builds hheld

/-- The driver that is held when a task stores another one. -/
def displaced? (p : Phase) (reply : Reply) (c : Connection) : Option Nat :=
  if (Progress.waiting p).checking?.isSome && reply.isGood then c.held else none

theorem resume_turn (p : Phase) (reply : Reply) (prompt : Prompt) (c : Connection) :
    Turn c.drivers (Progress.waiting p).checking? (c.resume p reply prompt).1.checking?
      (c.displaced? p reply) (c.resume p reply prompt).2.drivers := by
  cases hp : (Progress.waiting p).checking? with
  | none =>
    rw [displaced?, hp]
    exact (resume_passive hp reply prompt c).turn
  | some driver =>
    obtain ⟨goal, rfl⟩ : ∃ goal, p = .verifying driver goal := by
      cases p <;> cases hp
      exact ⟨_, rfl⟩
    rw [displaced?, hp]
    cases hreply : reply.isGood with
    | true =>
      rw [resume_good driver goal hreply]
      obtain ⟨hnone, hdrivers⟩ := proceed_passive goal prompt (c.hold driver)
      rw [hnone, hdrivers]
      exact .stores driver
    | false =>
      obtain ⟨e, rfl⟩ := Reply.eq_failed hreply
      rw [resume, drivers_close]
      exact .discards driver

namespace Turn

variable {x y : Drivers} {before after gone : Option Nat} {driver : Nat}

theorem held_of_builds (h : Turn x before (some driver) gone y) : y.held = none := by
  cases h with
  | builds hheld => exact hheld

theorem eq_of_builds (h : Turn x before (some driver) gone y) : driver = x.built + 1 := by
  cases h
  rfl

theorem eq_none_of_checked (h : Turn x (some driver) after gone y) : after = none := by
  cases h <;> rfl

theorem created_isPrefix (h : Turn x before after gone y) : x.created <+: y.created := by
  cases h with
  | builds => exact List.prefix_append _ _
  | nothing | releases | stores | discards => exact List.prefix_refl _

theorem closings_isPrefix (h : Turn x before after gone y) : x.closings <+: y.closings := by
  cases h with
  | releases | discards => exact List.prefix_append _ _
  | nothing | builds | stores => exact List.prefix_refl _

end Turn

/-- A task checks a driver only right after it began. -/
theorem checking?_resume (p : Phase) (reply : Reply) (prompt : Prompt) (c : Connection) :
    (c.resume p reply prompt).1.checking? = none := by
  cases hp : (Progress.waiting p).checking? with
  | none => exact (resume_passive hp reply prompt c).1
  | some driver =>
    have hturn := resume_turn p reply prompt c
    rw [hp] at hturn
    exact hturn.eq_none_of_checked

/-! ## Where the drivers are -/

/-- Every driver that was built is at one place: with the task that checks it, held, closed, or
displaced. -/
structure Drivers.Placed (x : Drivers) (checking displaced : List Nat) : Prop where
  created : x.created = List.range' 1 x.built
  places : (x.held.toList ++ checking ++ x.closings ++ displaced).Perm x.created

namespace Drivers.Placed

variable {x y : Drivers} {checking displaced : List Nat}

theorem new : Placed ⟨0, [], none, []⟩ [] [] := ⟨rfl, List.Perm.refl _⟩

theorem nodup (h : x.Placed checking displaced) : x.created.Nodup := by
  rw [h.created]
  exact List.nodup_range'

theorem fresh (h : x.Placed checking displaced) : x.built + 1 ∉ x.created := by
  rw [h.created, List.mem_range'_1]
  omega

theorem count (h : x.Placed checking displaced) (driver : Nat) :
    x.held.toList.count driver + checking.count driver + x.closings.count driver +
      displaced.count driver = if driver ∈ x.created then 1 else 0 := by
  rw [← h.nodup.count, ← h.places.count_eq]
  simp only [List.count_append]

/-- A turn of one task among others moves each driver at most from one place to the next. -/
theorem turn (h : x.Placed checking displaced) {before after gone : Option Nat}
    (ht : Turn x before after gone y) {others checking' : List Nat}
    (hbefore : checking.Perm (before.toList ++ others))
    (hafter : checking'.Perm (after.toList ++ others)) :
    y.Placed checking' (displaced ++ gone.toList) := by
  have hplaces := List.perm_iff_count.1 h.places
  have hchecking := List.perm_iff_count.1 hbefore
  have hchecking' := List.perm_iff_count.1 hafter
  simp only [List.count_append] at hplaces hchecking hchecking'
  refine ⟨?_, List.perm_iff_count.2 fun driver => ?_⟩
  · cases ht with
    | builds => simp [Drivers.build, h.created, List.range'_concat, Nat.add_comm]
    | nothing | releases | stores | discards => exact h.created
  · have hp := hplaces driver
    have hc := hchecking driver
    have hc' := hchecking' driver
    cases ht with
    | nothing | stores | discards =>
      simp only [Drivers.close, List.count_append, Option.toList_some, Option.toList_none,
        List.count_nil] at hp hc hc' ⊢
      omega
    | builds hheld =>
      simp only [Drivers.build, hheld, List.count_append, Option.toList_some, Option.toList_none,
        List.count_nil] at hp hc hc' ⊢
      omega
    | releases hheld =>
      simp only [Drivers.close, hheld, List.count_append, Option.toList_some, Option.toList_none,
        List.count_nil] at hp hc hc' ⊢
      omega

end Drivers.Placed

def localTarget : Target := ⟨"bolt://db:7687", "neo4j", "secret", none⟩

end GraphQuery.Connection
