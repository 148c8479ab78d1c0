import GraphQuery.Connection.Run

/-!
# One mishap in the running of a query

When a query is run on a connection, at most one thing goes wrong, anywhere between the building of
a driver and the end of the session. Whatever comes before the mishap is done, what comes after it
is not, except that the session is left. No record gets out unless all of them do.
-/
namespace GraphQuery.Connection

/-- Where something can go wrong. After the last record comes the end of the records, the reading
of which is counted too. -/
inductive Station where
  | construction
  | connectivity
  | opening
  | entering
  | sending
  | reading (k : Nat)
  | closing
deriving DecidableEq

/-- The session has been entered by then. -/
def Station.inSession : Station → Bool
  | .sending | .reading _ | .closing => true
  | .construction | .connectivity | .opening | .entering => false

/-- The records that answer a query, and the one thing that goes wrong, if anything does. -/
structure Service where
  records : List (List (Value × Value))
  mishap : Option (Station × Incident)

namespace Service

/-- What goes wrong at a place. -/
def wrong (s : Service) (place : Station) : Option Incident :=
  match s.mishap with
  | some (p, e) => if p = place then some e else none
  | none => none

def prompt (s : Service) : Prompt := ⟨s.wrong .construction, s.wrong .opening⟩

def reply (s : Service) : Phase → Reply
  | .verifying _ _ => Database.ending (s.wrong .connectivity)
  | .entering _ => Database.ending (s.wrong .entering)
  | .sending _ => Database.ending (s.wrong .sending)
  | .reading _ rows =>
    match s.wrong (.reading rows.length), s.records[rows.length]? with
    | some e, _ => .failed e
    | none, some record => .row (.map record)
    | none, none => .done
  | .leaving _ _ => Database.ending (s.wrong .closing)
  | .discarding _ _ _ | .closing _ | .working => .done

/-- Where a task comes to its end that is alone on its connection. -/
inductive Leads (s : Service) :
    Progress → Connection → Except Incident Value → Connection → Prop where
  | finished (outcome : Except Incident Value) (c : Connection) :
    Leads s (.finished outcome) c outcome c
  | resumed {p : Phase} {c next : Connection} {outcome : Except Incident Value}
    (h : Leads s (c.resume p (s.reply p) s.prompt).1 (c.resume p (s.reply p) s.prompt).2
      outcome next) : Leads s (.waiting p) c outcome next

theorem Leads.replied {s : Service} {p : Phase} (reply : Reply) (hreply : s.reply p = reply)
    {c next : Connection} {outcome : Except Incident Value}
    (h : s.Leads (c.resume p reply s.prompt).1 (c.resume p reply s.prompt).2 outcome next) :
    s.Leads (.waiting p) c outcome next := .resumed (hreply ▸ h)

/-- A query is run from its beginning to its end. -/
def Runs (s : Service) (r : Request) (c : Connection) (outcome : Except Incident Value)
    (next : Connection) : Prop :=
  s.Leads (c.start (.run r) s.prompt).1 (c.start (.run r) s.prompt).2 outcome next

theorem Leads.unique {s : Service} {p : Progress} {c next next' : Connection}
    {outcome outcome' : Except Incident Value} (h : s.Leads p c outcome next)
    (h' : s.Leads p c outcome' next') : outcome' = outcome ∧ next' = next := by
  induction h with
  | finished outcome c =>
    cases h'
    exact ⟨rfl, rfl⟩
  | resumed h ih =>
    cases h' with
    | resumed h' => exact ih h'

/-! ## The session -/

def rows (s : Service) : List Value := s.records.map .map

/-- What the reading of the records comes to. -/
def reading (s : Service) : Except Incident (List Value) :=
  match s.mishap with
  | some (.reading k, e) => if k ≤ s.records.length then .error e else .ok s.rows
  | _ => .ok s.rows

/-- What the session comes to before it is left. -/
def work (s : Service) : Except Incident (List Value) :=
  match s.wrong .sending with
  | some e => .error e
  | none => s.reading

/-- What the session comes to. -/
def session (s : Service) : Except Incident (List Value) :=
  match s.wrong .opening, s.wrong .entering with
  | some e, _ | none, some e => .error e
  | none, none => (s.wrong .closing).elim s.work .error

def error? : Except Incident (List Value) → Option Incident
  | .ok _ => none
  | .error e => some e

/-- What a run makes of the outcome of its session. -/
def outcome (target : Target) (text : String) :
    Except Incident (List Value) → Except Incident Value
  | .ok rows => .ok (.list rows)
  | .error e => .error (classified target text e)

variable {s : Service} {r : Request}

/-- A connection that differs by signals that were added, and by what was logged. -/
structure Adds (new : List Signal) (c next : Connection) : Prop where
  target : next.target = c.target
  held : next.held = c.held
  signals : next.signals = c.signals ++ new

theorem Adds.trans {new more : List Signal} {c c' next : Connection} (h : Adds new c c')
    (h' : Adds more c' next) : Adds (new ++ more) c next where
  target := h'.target.trans h.target
  held := h'.held.trans h.held
  signals := by rw [h'.signals, h.signals, List.append_assoc]

theorem adds_signal (x : Signal) (c : Connection) : Adds [x] c (c.signal x) := ⟨rfl, rfl, rfl⟩

theorem leads_endUse (s : Service) (r : Request) (result : Except Incident (List Value))
    (c : Connection) : ∃ next, s.Leads (c.endUse (.query r) result).1 (c.endUse (.query r) result).2
      (outcome c.target r.text result) next ∧ Adds [] c next := by
  have hend : (c.endUse (.query r) result).1 = .finished (outcome c.target r.text result) := by
    cases result with
    | ok rows => rfl
    | error e => exact endUse_query_error r e c
  refine ⟨(c.endUse (.query r) result).2, hend ▸ .finished _ _, ?_⟩
  cases result <;> exact ⟨rfl, rfl, (List.append_nil _).symm⟩

/-- A session is left with what went wrong in it, and comes to what goes wrong when it is left. -/
theorem leads_leave (s : Service) (r : Request) (result : Except Incident (List Value))
    (c : Connection) : ∃ next,
      s.Leads (c.leave (.query r) result).1 (c.leave (.query r) result).2
        (outcome c.target r.text ((s.wrong .closing).elim result .error)) next ∧
      Adds [.exitSession (error? result)] c next := by
  have hsignal := adds_signal (.exitSession (error? result)) c
  obtain ⟨next, hend, hnext⟩ := s.leads_endUse r ((s.wrong .closing).elim result .error)
    (c.signal (.exitSession (error? result)))
  refine ⟨next, ?_, hsignal.trans hnext⟩
  cases hclosing : s.wrong .closing with
  | none =>
    rw [hclosing] at hend
    exact .replied .done (by rw [reply, hclosing, Database.ending]) hend
  | some e =>
    rw [hclosing] at hend
    exact .replied (.failed e) (by rw [reply, hclosing, Database.ending]) hend

/-- What goes wrong at a record that is read. -/
theorem reading_of_wrong {k : Nat} {e : Incident} (h : s.wrong (.reading k) = some e)
    (hk : k ≤ s.records.length) : s.reading = .error e := by
  rw [wrong] at h
  split at h
  · next place e' hmishap =>
    split at h
    · next hplace =>
      cases h
      rw [reading, hmishap, hplace]
      exact if_pos hk
    · cases h
  · cases h

theorem reading_of_not_wrong (h : ∀ k ≤ s.records.length, s.wrong (.reading k) = none) :
    s.reading = .ok s.rows := by
  rw [reading]
  split
  · next k e hmishap =>
    split
    · next hk => simpa [wrong, hmishap] using h k hk
    · rfl
  · rfl

theorem length_take_rows {k : Nat} (hk : k ≤ s.records.length) : (s.rows.take k).length = k := by
  rw [List.length_take, rows, List.length_map, Nat.min_eq_left hk]

theorem reply_reading (r : Request) {k : Nat} (hk : k ≤ s.records.length) :
    s.reply (.reading r (s.rows.take k)) =
      match s.wrong (.reading k), s.records[k]? with
      | some e, _ => .failed e
      | none, some record => .row (.map record)
      | none, none => .done := by
  rw [reply, length_take_rows hk]

/-- A task that reads goes on until the end of the records, or to the one where something goes
wrong. -/
theorem leads_read {left k : Nat} (hleft : k + left = s.records.length)
    (hfree : ∀ j < k, s.wrong (.reading j) = none) {c next : Connection}
    {result : Except Incident Value}
    (h : s.Leads (c.leave (.query r) s.reading).1 (c.leave (.query r) s.reading).2 result next) :
    s.Leads (.waiting (.reading r (s.rows.take k))) c result next := by
  have hk : k ≤ s.records.length := by omega
  have hreply := s.reply_reading r hk
  -- on the records that are left; none are left where their end is read
  induction left generalizing k with
  | zero =>
    have hend : s.records[k]? = none := List.getElem?_eq_none (by omega)
    cases hwrong : s.wrong (.reading k) with
    | some e =>
      rw [reading_of_wrong hwrong hk] at h
      exact .replied (.failed e) (by rw [hreply, hwrong]) h
    | none =>
      have hread : s.reading = .ok (s.rows.take k) := by
        rw [List.take_of_length_le (by simp [rows]; omega)]
        refine reading_of_not_wrong fun j hj => ?_
        obtain hlt | rfl : j < k ∨ j = k := by omega
        · exact hfree j hlt
        · exact hwrong
      rw [hread] at h
      exact .replied .done (by rw [hreply, hwrong, hend]) h
  | succ left ih =>
    cases hwrong : s.wrong (.reading k) with
    | some e =>
      rw [reading_of_wrong hwrong hk] at h
      exact .replied (.failed e) (by rw [hreply, hwrong]) h
    | none =>
      have hrow : s.records[k]? = some s.records[k] := List.getElem?_eq_getElem (by omega)
      have hnext : s.rows.take k ++ [.map s.records[k]] = s.rows.take (k + 1) := by
        rw [List.take_add_one, rows, List.getElem?_map, hrow]
        rfl
      have hk' : k + 1 ≤ s.records.length := by omega
      have hfree' : ∀ j < k + 1, s.wrong (.reading j) = none := fun j hj =>
        (Nat.lt_succ_iff_lt_or_eq.1 hj).elim (hfree j) fun heq => heq ▸ hwrong
      have hlater := ih (by omega) hfree' hk' (s.reply_reading r hk')
      rw [← hnext] at hlater
      exact .replied (.row (.map s.records[k])) (by rw [hreply, hwrong, hrow]) hlater

theorem leads_sending (s : Service) (r : Request) (c : Connection) : ∃ next,
    s.Leads (.waiting (.sending r)) c
      (outcome c.target r.text ((s.wrong .closing).elim s.work .error)) next ∧
    Adds [.exitSession (error? s.work)] c next := by
  obtain ⟨next, hleave, hnext⟩ := s.leads_leave r s.work c
  refine ⟨next, ?_, hnext⟩
  cases hsending : s.wrong .sending with
  | some e =>
    have hwork : s.work = .error e := by rw [work, hsending]
    refine .replied (.failed e) (by rw [reply, hsending, Database.ending]) ?_
    rw [hwork] at hleave ⊢
    exact hleave
  | none =>
    have hwork : s.work = s.reading := by rw [work, hsending]
    refine .replied .done (by rw [reply, hsending, Database.ending]) ?_
    rw [hwork] at hleave ⊢
    exact leads_read (Nat.zero_add _) (fun j hj => absurd hj (Nat.not_lt_zero j)) hleave

/-- The signals of a session that is asked of a driver. -/
def sessionSignals (s : Service) (r : Request) (database : Option String) (driver : Nat) :
    List Signal :=
  .openSession driver database ::
    match s.wrong .opening, s.wrong .entering with
    | some _, _ => []
    | none, some _ => [.enterSession]
    | none, none =>
      [.enterSession, .send r.text (sentParams r.params), .exitSession (error? s.work)]

theorem leads_session (s : Service) (r : Request) (driver : Nat) (c : Connection) : ∃ next,
    s.Leads (c.openSession driver (.query r) s.prompt).1
      (c.openSession driver (.query r) s.prompt).2 (outcome c.target r.text s.session) next ∧
    Adds (s.sessionSignals r c.target.database driver) c next := by
  have hopened := adds_signal (.openSession driver c.target.database) c
  have hentered := hopened.trans (adds_signal .enterSession _)
  rw [openSession, prompt, session, sessionSignals]
  cases hopening : s.wrong .opening with
  | some e =>
    obtain ⟨next, hend, hnext⟩ := s.leads_endUse r (.error e)
      (c.signal (.openSession driver c.target.database))
    exact ⟨next, hend, hopened.trans hnext⟩
  | none =>
    cases hentering : s.wrong .entering with
    | some e =>
      obtain ⟨next, hend, hnext⟩ := s.leads_endUse r (.error e)
        ((c.signal (.openSession driver c.target.database)).signal .enterSession)
      have hreply : s.reply (.entering (.query r)) = .failed e := by
        rw [reply, hentering, Database.ending]
      exact ⟨next, .replied _ hreply hend, hentered.trans hnext⟩
    | none =>
      obtain ⟨next, hsending, hnext⟩ := s.leads_sending r
        (((c.signal (.openSession driver c.target.database)).signal .enterSession).signal
          (.send r.text (sentParams r.params)))
      have hreply : s.reply (.entering (.query r)) = .done := by
        rw [reply, hentering, Database.ending]
      exact ⟨next, .replied _ hreply hsending, (hentered.trans (adds_signal _ _)).trans hnext⟩

/-! ## The run -/

/-- What a run comes to before its errors are told apart. -/
def result (s : Service) (c : Connection) : Except Incident (List Value) :=
  match c.held, s.wrong .construction, s.wrong .connectivity with
  | none, some e, _ | none, none, some e => .error e
  | _, _, _ => s.session

/-- The driver that is held after a run. -/
def kept (s : Service) (c : Connection) : Option Nat :=
  match c.held, s.wrong .construction, s.wrong .connectivity with
  | some driver, _, _ => some driver
  | none, none, none => some (c.built + 1)
  | none, _, _ => none

def building (target : Target) : Signal := .build target.uri target.username target.password

def signals (s : Service) (r : Request) (c : Connection) : List Signal :=
  match c.held, s.wrong .construction, s.wrong .connectivity with
  | some driver, _, _ => s.sessionSignals r c.target.database driver
  | none, some _, _ => [building c.target]
  | none, none, some _ => [building c.target, .verify (c.built + 1), .close (c.built + 1)]
  | none, none, none =>
    building c.target :: .verify (c.built + 1) ::
      s.sessionSignals r c.target.database (c.built + 1)

theorem adds_announce (r : Request) (c : Connection) : Adds [] c (c.announce r) :=
  ⟨rfl, rfl, (List.append_nil _).symm⟩

/-- The connection while its new driver is checked. -/
def verifying (c : Connection) : Connection :=
  ({ c.signal (building c.target) with built := c.built + 1 } : Connection).signal
    (.verify (c.built + 1))

theorem adds_verify (c : Connection) :
    Adds [building c.target, .verify (c.built + 1)] c (verifying c) :=
  ⟨rfl, rfl, List.append_assoc _ _ _⟩

theorem runs (s : Service) (r : Request) (c : Connection) : ∃ next,
    s.Runs r c (outcome c.target r.text (s.result c)) next ∧ next.target = c.target ∧
      next.held = s.kept c ∧ next.signals = c.signals ++ s.signals r c := by
  have hannounced := adds_announce r c
  simp only [Runs, start, connectFor, result, kept, signals]
  cases hheld : c.held with
  | some driver =>
    obtain ⟨next, hsession, hnext⟩ := s.leads_session r driver (c.announce r)
    have hproceed : (c.announce r).proceed (.session (.query r)) s.prompt =
        (c.announce r).openSession driver (.query r) s.prompt := by
      rw [proceed, hannounced.held, hheld]
    have hadds := hannounced.trans hnext
    rw [hannounced.held, hheld, Option.isSome_some, if_pos rfl, hproceed]
    exact ⟨next, hsession, hadds.target, hadds.held.trans hheld, hadds.signals⟩
  | none =>
    rw [hannounced.held, hheld, Option.isSome_none, if_neg Bool.false_ne_true, buildDriver, prompt]
    cases hconstruction : s.wrong .construction with
    | some e =>
      obtain ⟨next, hend, hnext⟩ := s.leads_endUse r (.error e)
        ((c.announce r).signal (building c.target))
      have hadds := (hannounced.trans (adds_signal _ _)).trans hnext
      exact ⟨next, hend, hadds.target, hadds.held.trans hheld, hadds.signals⟩
    | none =>
      have hverify := hannounced.trans (adds_verify (c.announce r))
      cases hconnectivity : s.wrong .connectivity with
      | some e =>
        obtain ⟨next, hend, hnext⟩ := s.leads_endUse r (.error e)
          ((verifying (c.announce r)).signal (.close (c.built + 1)))
        have hadds := (hverify.trans (adds_signal _ _)).trans hnext
        have hreply : s.reply (.verifying (c.built + 1) (.session (.query r))) = .failed e := by
          rw [reply, hconnectivity, Database.ending]
        exact ⟨next, .replied _ hreply (.replied .done rfl hend), hadds.target,
          hadds.held.trans hheld, hadds.signals⟩
      | none =>
        obtain ⟨next, hsession, hnext⟩ := s.leads_session r (c.built + 1)
          ((verifying (c.announce r)).hold (c.built + 1))
        have hreply : s.reply (.verifying (c.built + 1) (.session (.query r))) = .done := by
          rw [reply, hconnectivity, Database.ending]
        have htarget := hnext.target.trans hverify.target
        refine ⟨next, .replied _ hreply hsession, htarget, hnext.held, ?_⟩
        rw [hnext.signals]
        exact (congrArg (· ++ _) hverify.signals).trans (List.append_assoc _ _ _)

/-! ## The mishap that a run meets -/

/-- A place that a run comes to if nothing goes wrong before. -/
def passes (s : Service) (c : Connection) : Station → Bool
  | .construction | .connectivity => c.held.isNone
  | .reading k => k ≤ s.records.length
  | .opening | .entering | .sending | .closing => true

def failure? (s : Service) (c : Connection) : Option (Station × Incident) :=
  s.mishap.filter fun m => s.passes c m.1

/-- A session is opened for the query: nothing goes wrong before it has been entered. -/
def enters (s : Service) (c : Connection) : Bool :=
  (s.failure? c).all fun m => m.1.inSession

theorem wrong_of_mishap {place : Station} {e : Incident} (h : s.mishap = some (place, e))
    (p : Station) : s.wrong p = if place = p then some e else none := by
  rw [wrong, h]

theorem wrong_of_none (h : s.mishap = none) (p : Station) : s.wrong p = none := by
  rw [wrong, h]

theorem result_eq (s : Service) (c : Connection) : s.result c =
    match s.failure? c with
    | some (_, e) => .error e
    | none => .ok s.rows := by
  rw [failure?]
  cases hmishap : s.mishap with
  | none =>
    cases c.held <;> simp [result, session, work, reading, wrong_of_none hmishap, hmishap]
  | some m =>
    obtain ⟨place, e⟩ := m
    have hwrong := wrong_of_mishap hmishap
    cases place with
    | reading k =>
      by_cases hk : k ≤ s.records.length <;> cases c.held <;>
        simp [result, session, work, reading, hwrong, hmishap, passes, Option.filter, hk]
    | _ =>
      cases hheld : c.held <;>
        simp [result, session, work, reading, hwrong, hmishap, passes, Option.filter, hheld]

def sendings (signals : List Signal) : List (String × Value) :=
  signals.filterMap fun
    | .send text params => some (text, params)
    | _ => none

def entries (signals : List Signal) : Nat :=
  signals.countP fun
    | .enterSession => true
    | _ => false

def exits (signals : List Signal) : Nat :=
  signals.countP fun
    | .exitSession _ => true
    | _ => false

/-- What is sent, and how often a session is left: once if it has been opened. -/
theorem signals_spec (s : Service) (r : Request) (c : Connection) :
    sendings (s.signals r c) = (if s.enters c then [(r.text, sentParams r.params)] else []) ∧
    exits (s.signals r c) = (if s.enters c then 1 else 0) ∧
    (s.enters c = true → entries (s.signals r c) = 1) := by
  rw [enters, failure?]
  cases hmishap : s.mishap with
  | none =>
    cases hheld : c.held <;>
      simp [signals, sessionSignals, wrong_of_none hmishap, hheld, sendings, exits, entries,
        building]
  | some m =>
    obtain ⟨place, e⟩ := m
    have hwrong := wrong_of_mishap hmishap
    cases place with
    | reading k =>
      by_cases hk : k ≤ s.records.length <;> cases hheld : c.held <;>
        simp [signals, sessionSignals, hwrong, passes, hheld, Option.filter, hk, sendings, exits,
          entries, Station.inSession, building]
    | _ =>
      cases hheld : c.held <;>
        simp [signals, sessionSignals, hwrong, passes, hheld, Option.filter, sendings, exits,
          entries, Station.inSession, building]

/-- An error by which the database refuses, or is out of reach. -/
def OfDatabase (e : Incident) : Prop :=
  ∃ o, e = .outside o ∧ (o.family = .unavailable ∨ o.family = .database)

/-- The failure that is made of an error of the database. -/
structure Reports (target : Target) (text : String) (o : OutsideError) (f : Failure) : Prop where
  kind : f.kind = .service
  code : f.code = if o.family = .unavailable then .serviceUnavailable else .databaseQuery
  details : f.details =
    ⟨"neo4j_driver", "run", .execution ⟨some target.uri, some text, some o.name⟩⟩

theorem classified_of_ofDatabase (target : Target) (text : String) {e : Incident}
    (h : OfDatabase e) : ∃ f o, e = .outside o ∧
      classified target text e = .failure f (some o) ∧ Reports target text o f := by
  obtain ⟨o, rfl, hfamily | hfamily⟩ := h
  · exact ⟨refusal target text .serviceUnavailable o, o, rfl, by simp only [classified, hfamily],
      rfl, (if_pos hfamily).symm, rfl⟩
  · exact ⟨refusal target text .databaseQuery o, o, rfl, by simp only [classified, hfamily],
      rfl, by simp [hfamily, refusal, Failure.service], rfl⟩

theorem classified_of_not_ofDatabase (target : Target) (text : String) {e : Incident}
    (h : ¬ OfDatabase e) : classified target text e = e := by
  cases e with
  | failure f cause => rfl
  | outside o =>
    cases hfamily : o.family with
    | unavailable => exact absurd ⟨o, rfl, .inl hfamily⟩ h
    | database => exact absurd ⟨o, rfl, .inr hfamily⟩ h
    | ordinary | halting => simp only [classified, hfamily]

theorem sentParams_elim (params : Option (List (Value × Value))) :
    sentParams (params.elim .null .map) = .map (params.getD []) := by
  rcases params with _ | _ | ⟨entry, entries⟩ <;> rfl

/-- How a run ends, and what has been done with the driver and the session by then. -/
structure Settles (s : Service) (c : Connection) (text : String)
    (params : Option (List (Value × Value))) (outcome : Except Incident Value)
    (trace : List Signal) (next : Connection) : Prop where
  returned : s.failure? c = none → outcome = .ok (.list (s.records.map .map)) ∧
    sendings trace = [(text, .map (params.getD []))]
  reported : ∀ place e, s.failure? c = some (place, e) → (OfDatabase e ↔ ∃ f o, e = .outside o ∧
    outcome = .error (.failure f (some o)) ∧ Reports c.target text o f)
  raised : ∀ place e, s.failure? c = some (place, e) → ¬ OfDatabase e → outcome = .error e
  signals : next.signals = c.signals ++ trace
  sent : sendings trace = if s.enters c then [(text, .map (params.getD []))] else []
  left : s.enters c = true → entries trace = 1 ∧ exits trace = 1
  unopened : s.enters c = false → exits trace = 0
  target : next.target = c.target
  held : ∀ driver, c.held = some driver → next.held = some driver
  stored : c.held = none → next.held =
    if (s.wrong .construction).isNone && (s.wrong .connectivity).isNone then some (c.built + 1)
    else none

theorem settles {s : Service} {c next : Connection} {text : String} {argument : Value}
    {params : Option (List (Value × Value))} (htarget : next.target = c.target)
    (hheld : next.held = s.kept c)
    (hsignals : next.signals = c.signals ++ s.signals ⟨text, params.elim .null .map, argument⟩ c) :
    s.Settles c text params (outcome c.target text (s.result c))
      (s.signals ⟨text, params.elim .null .map, argument⟩ c) next := by
  obtain ⟨hsent, hexits, hentries⟩ := s.signals_spec ⟨text, params.elim .null .map, argument⟩ c
  rw [sentParams_elim] at hsent
  have houtcome {place : Station} {e : Incident} (h : s.failure? c = some (place, e)) :
      outcome c.target text (s.result c) = .error (classified c.target text e) := by
    rw [result_eq, h]
    rfl
  have hraised {place : Station} {e : Incident} (h : s.failure? c = some (place, e))
      (hother : ¬ OfDatabase e) : outcome c.target text (s.result c) = .error e := by
    rw [houtcome h, classified_of_not_ofDatabase c.target text hother]
  refine ⟨fun hnone => ⟨?_, ?_⟩, fun place e h => ⟨fun hdatabase => ?_, ?_⟩, fun _ _ => hraised,
    hsignals, hsent, fun henters => ⟨hentries henters, ?_⟩, fun hno => ?_, htarget, ?_, ?_⟩
  · rw [result_eq, hnone]
    rfl
  · have henters : s.enters c = true := by rw [enters, hnone]; rfl
    rw [hsent, if_pos henters]
  · obtain ⟨f, o, he, hclassified, hreports⟩ := classified_of_ofDatabase c.target text hdatabase
    exact ⟨f, o, he, by rw [houtcome h, hclassified], hreports⟩
  · rintro ⟨f, o, rfl, hfailure, -⟩
    by_cases hdatabase : OfDatabase (.outside o)
    · exact hdatabase
    · rw [hraised h hdatabase] at hfailure
      cases hfailure
  · rw [hexits, if_pos henters]
  · rw [hexits, hno]
    rfl
  · intro driver hdriver
    rw [hheld, kept, hdriver]
  · intro hnone
    rw [hheld, kept, hnone]
    cases s.wrong .construction <;> cases s.wrong .connectivity <;> rfl

/-- A query comes to exactly one end. If nothing goes wrong, all records are returned after the one
sending of the text with its parameters. If something does, nothing is returned: an error of the
database is reported by a failure with it as the cause, and any other error is raised as it is. A
session that was opened is left once, and a driver is stored only if connecting has gone well. -/
theorem run_settles (s : Service) (c : Connection) (text : String) (argument : Value)
    (params : Option (List (Value × Value))) : ∃ outcome trace next,
      s.Runs ⟨text, params.elim .null .map, argument⟩ c outcome next ∧
      (∀ outcome' next', s.Runs ⟨text, params.elim .null .map, argument⟩ c outcome' next' →
        outcome' = outcome ∧ next' = next) ∧
      s.Settles c text params outcome trace next := by
  obtain ⟨next, hruns, htarget, hheld, hsignals⟩ :=
    s.runs ⟨text, params.elim .null .map, argument⟩ c
  exact ⟨_, _, next, hruns, fun _ _ h => hruns.unique h, settles htarget hheld hsignals⟩

def unconnected : Connection := new ⟨"bolt://db:7687", "neo4j", "secret", none⟩

/-- The second record is lost with the connection. -/
def dropped : Service where
  records := [[(.text "n", .int 1)], [(.text "n", .int 2)]]
  mishap := some (.reading 1, .outside ⟨"ServiceUnavailable", "gone", .unavailable⟩)

theorem dropped_settles : ∃ outcome trace next,
    dropped.Runs ⟨"RETURN n", .null, .text "RETURN n"⟩ unconnected outcome next ∧
    (∃ f o, outcome = .error (.failure f (some o)) ∧ f.code = .serviceUnavailable) ∧
    sendings trace = [("RETURN n", .map [])] ∧ exits trace = 1 ∧ next.held = some 1 := by
  obtain ⟨outcome, trace, next, hruns, -, hsettles⟩ :=
    run_settles dropped unconnected "RETURN n" (.text "RETURN n") none
  obtain ⟨f, o, ho, houtcome, hreports⟩ :=
    (hsettles.reported _ _ rfl).1 ⟨_, rfl, .inl rfl⟩
  cases ho
  exact ⟨outcome, trace, next, hruns, ⟨f, _, houtcome, hreports.code⟩, hsettles.sent,
    (hsettles.left rfl).2, hsettles.stored rfl⟩

end Service
end GraphQuery.Connection
