import GraphQuery.Guard.Layer

/-!
# The way of an outcome through layers

A result and a halting error pass all layers unnoticed. Any other error gets as far out as the
first layer that stops it; each layer on this way reports it once, and those further out never see
it. Whatever happens, the bound variables are the same afterwards.
-/
namespace GraphQuery.Guard

/-- The layers that an error gets to: from the innermost out to the first that stops it. -/
def reached (layers : List (Layer × Arguments)) : List (Layer × Arguments) :=
  layers.takeWhile (·.1.reraise) ++ (layers.dropWhile (·.1.reraise)).take 1

/-- What a layer has to say about an error. -/
structure Note where
  layer : Layer
  level : Level
  context : Context

/-- A failure has a level of its own, other errors have that of the layer. -/
def Layer.note (l : Layer) (arguments : Arguments) (e : Incident) (trace : Nat) : Note :=
  { layer := l
    level := match e with
      | .failure f _ => f.level
      | .outside _ => l.level
    context := Context.capture e l.function arguments trace }

/-- One note of each layer, with a trace number of its own. -/
def notes (e : Incident) (trace : Nat) (layers : List (Layer × Arguments)) : List Note :=
  (layers.zipIdx trace).map fun entry => entry.1.1.note entry.1.2 e entry.2

/-- The note as a handler is told of it while its trace is bound. -/
def Note.report (e : Incident) (bound : Log.Fields) (n : Note) : Report :=
  ⟨e, n.level, n.context, n.layer.function.asynchronous, bindTrace n.context.trace bound⟩

/-- The note as it is logged while its trace is bound. -/
def Note.logged (e : Incident) (bound : Log.Fields) (n : Note) : Log.Event :=
  let event := Layer.event n.context n.level e
  { event with fields := (bindTrace n.context.trace bound).merge event.fields }

/-- A journal with more notes about an error, each for its handler or for the log. -/
def Journal.note (e : Incident) (ns : List Note) (j : Journal) : Journal :=
  { j with
    traces := j.traces + ns.length
    logs := j.logs ++ (ns.filter (!·.layer.handled)).map (Note.logged e j.bound)
    handled := j.handled ++ (ns.filter (·.layer.handled)).map (Note.report e j.bound) }

theorem Journal.note_nil (e : Incident) (j : Journal) : j.note e [] = j := by
  simp [Journal.note]

theorem Journal.note_cons (e : Incident) (n : Note) (ns : List Note) (j : Journal) :
    j.note e (n :: ns) = (j.note e [n]).note e ns := by
  have htraces : j.traces + (ns.length + 1) = j.traces + 1 + ns.length := by omega
  cases hn : n.layer.handled <;> simp [Journal.note, hn, htraces]

theorem reached_of_reraise {l : Layer} (h : l.reraise = true) (arguments : Arguments)
    (layers : List (Layer × Arguments)) :
    reached ((l, arguments) :: layers) = (l, arguments) :: reached layers := by
  simp [reached, h]

theorem reached_of_stops {l : Layer} (h : l.reraise = false) (arguments : Arguments)
    (layers : List (Layer × Arguments)) :
    reached ((l, arguments) :: layers) = [(l, arguments)] := by
  simp [reached, h]

theorem notes_cons (e : Incident) (trace : Nat) (l : Layer) (arguments : Arguments)
    (layers : List (Layer × Arguments)) : notes e trace ((l, arguments) :: layers) =
      l.note arguments e trace :: notes e (trace + 1) layers := by
  simp [notes]

/-! ## One layer -/

namespace Layer

theorem report_eq (l : Layer) (arguments : Arguments) (e : Incident) (j : Journal) :
    l.report arguments e j = j.note e [l.note arguments e j.traces] := by
  have hlevel : e.level l.level = (l.note arguments e j.traces).level := by cases e <;> rfl
  cases hl : l.handled <;>
    simp [report, tell, Journal.during, Journal.log, Journal.note, Note.report, Note.logged, hlevel,
      note, hl, Context.capture]

theorem pass_of_passes (l : Layer) (arguments : Arguments) {e : Incident}
    (h : e.isHalting = true) (j : Journal) : l.pass arguments (.error e) j = (.error e, j) := by
  rw [pass, if_pos h]

theorem pass_of_reports (l : Layer) (arguments : Arguments) {e : Incident}
    (h : e.isHalting = false) (j : Journal) : l.pass arguments (.error e) j =
      (if l.reraise then .error e else .ok .null, j.note e [l.note arguments e j.traces]) := by
  rw [pass, h, report_eq]
  rfl

end Layer

/-! ## Nested layers -/

theorem passAll_cons (l : Layer) (arguments : Arguments) (layers : List (Layer × Arguments))
    (outcome : Except Incident Value) (j : Journal) :
    passAll ((l, arguments) :: layers) outcome j =
      passAll layers (l.pass arguments outcome j).1 (l.pass arguments outcome j).2 := rfl

theorem passAll_ok (layers : List (Layer × Arguments)) (v : Value) (j : Journal) :
    passAll layers (.ok v) j = (.ok v, j) := by
  induction layers with
  | nil => rfl
  | cons layer layers ih => exact ih

theorem passAll_of_halting (layers : List (Layer × Arguments)) {e : Incident}
    (h : e.isHalting = true) (j : Journal) : passAll layers (.error e) j = (.error e, j) := by
  induction layers with
  | nil => rfl
  | cons layer layers ih => rw [passAll_cons, Layer.pass_of_passes _ _ h, ih]

theorem passAll_of_reports (layers : List (Layer × Arguments)) {e : Incident}
    (h : e.isHalting = false) (j : Journal) : passAll layers (.error e) j =
      (if layers.all (·.1.reraise) then .error e else .ok .null,
        j.note e (notes e j.traces (reached layers))) := by
  induction layers generalizing j with
  | nil => exact congrArg (Prod.mk _) (j.note_nil e).symm
  | cons layer layers ih =>
    obtain ⟨l, arguments⟩ := layer
    rw [passAll_cons, l.pass_of_reports arguments h]
    cases hl : l.reraise with
    | true =>
      rw [reached_of_reraise hl, notes_cons, List.all_cons, hl, Bool.true_and]
      exact (ih _).trans (congrArg (Prod.mk _) (Journal.note_cons e _ _ j).symm)
    | false =>
      rw [reached_of_stops hl, List.all_cons, hl, Bool.false_and]
      exact passAll_ok layers .null _

theorem bound_passAll (layers : List (Layer × Arguments)) (outcome : Except Incident Value)
    (j : Journal) : (passAll layers outcome j).2.bound = j.bound := by
  induction layers generalizing outcome j with
  | nil => rfl
  | cons layer layers ih => rw [passAll_cons, ih, Layer.bound_pass]

/-- A result and a halting error leave nested layers as they came, and nothing is reported. Any
other error is reported once by each of the layers that it gets to, in their order, and leaves them
as it came unless one of them stops it. The bound variables are the same afterwards. -/
theorem passAll_reports (layers : List (Layer × Arguments)) (j : Journal) :
    (∀ v, passAll layers (.ok v) j = (.ok v, j)) ∧
    (∀ e : Incident, e.isHalting = true → passAll layers (.error e) j = (.error e, j)) ∧
    (∀ e : Incident, e.isHalting = false → passAll layers (.error e) j =
      (if layers.all (·.1.reraise) then .error e else .ok .null,
        j.note e (notes e j.traces (reached layers)))) ∧
    ∀ outcome, (passAll layers outcome j).2.bound = j.bound :=
  ⟨fun v => passAll_ok layers v j, fun _ h => passAll_of_halting layers h j,
    fun _ h => passAll_of_reports layers h j, fun outcome => bound_passAll layers outcome j⟩

def badInput : Incident := .outside ⟨"ValueError", "bad input", .ordinary⟩

/-- A layer with a handler inside one that stops errors, inside one that never sees any. -/
def nested : List (Layer × Arguments) :=
  [(⟨⟨"read", [⟨"query", .either, false⟩], true⟩, .warning, true, true⟩, ⟨[.text "RETURN 1"], []⟩),
   (⟨⟨"retry", [], false⟩, .critical, false, false⟩, ⟨[], []⟩),
   (⟨⟨"serve", [], true⟩, .error, true, false⟩, ⟨[], []⟩)]

theorem nested_reports : badInput.isHalting = false ∧
    passAll nested (.error badInput) {} =
      (.ok .null, ({} : Journal).note badInput (notes badInput 0 (nested.take 2))) ∧
    ((passAll nested (.error badInput) {}).2.handled.map (·.level) = [.warning]) ∧
    (passAll nested (.error badInput) {}).2.logs.map (·.level) = [.critical] := by
  have hreports := (passAll_reports nested {}).2.2.1 badInput rfl
  refine ⟨rfl, hreports, ?_, ?_⟩
  · rw [hreports]
    rfl
  · rw [hreports]
    rfl

end GraphQuery.Guard
