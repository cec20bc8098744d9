import LiveSchema.Proofs.Outcomes
import LiveSchema.Session.Rows
/-! The forms in which the result of a command is read: all rows, the value of the first, or the values of all.
They agree on every answer, and a set is refused for a width exactly if the first row that does not hold a single
value is too wide or empty. -/
namespace LiveSchema

namespace Row
variable {row : Row} {v : Value} {vs : List Value} {width : Nat}

def Holds (row : Row) (v : Value) : Prop := ∃ cell, row = [cell] ∧ cell.value? = some v

theorem singleHolds : row.single = .ok v ↔ row.Holds v := by
  unfold single Holds
  split
  · rename_i cell
    cases read : cell.value? <;> simp [read]
  · rename_i other
    simp only [reduceCtorEq, false_iff]
    rintro ⟨cell, rfl, -⟩
    exact other cell rfl

theorem singleWidth : row.single = .error (.columnCount width) ↔ row.length = width ∧ width ≠ 1 := by
  unfold single
  split
  · rename_i cell
    cases cell.value? <;> simp +contextual [eq_comm]
  · rename_i other
    have wide : row.length ≠ 1 := fun one => by
      obtain ⟨cell, rfl⟩ := List.length_eq_one_iff.mp one
      exact other cell rfl
    simp only [Except.error.injEq, Failure.columnCount.injEq, iff_self_and]
    rintro rfl
    exact wide

theorem valuesRead (index : Nat) :
    row.valuesFrom index = .ok vs ↔ List.Forall₂ (fun cell v => Cell.value? cell = some v) row vs := by
  induction row generalizing index vs with
  | nil => simp [valuesFrom, eq_comm]
  | cons cell rest ih =>
    rw [valuesFrom, List.forall₂_cons_left_iff]
    cases read : cell.value? with
    | none => simp
    | some v =>
      simp only [okMap, ih, Option.some.injEq]
      constructor
      · rintro ⟨others, later, rfl⟩
        exact ⟨v, others, rfl, later, rfl⟩
      · rintro ⟨_, others, rfl, later, rfl⟩
        exact ⟨others, later, rfl⟩

theorem holdsValues : row.values = .ok [v] ↔ row.Holds v := by
  rw [values, valuesRead, List.forall₂_cons_right_iff]
  simp only [List.forall₂_nil_right_iff, Holds]
  constructor
  · rintro ⟨cell, _, read, rfl, rfl⟩
    exact ⟨cell, rfl, read⟩
  · rintro ⟨cell, rfl, read⟩
    exact ⟨cell, _, read, rfl, rfl⟩

end Row

namespace Rows
variable {rows : List Row} {vs : List Value} {width : Nat}

theorem setHolds : set rows = .ok vs ↔ List.Forall₂ Row.Holds rows vs := by
  simp only [set, okEach, Row.singleHolds]

theorem setWidth : set rows = .error (.columnCount width) ↔
    ∃ before row after, rows = before ++ row :: after ∧ (∀ earlier ∈ before, ∃ v, Row.Holds earlier v) ∧
      row.length = width ∧ width ≠ 1 := by
  simp only [set, errorEach, Row.singleHolds, Row.singleWidth]

theorem setAll (read : set rows = .ok vs) : all rows = .ok (vs.map ([·])) := by
  rw [all, okEach, List.forall₂_map_right_iff]
  exact (setHolds.mp read).imp fun _ _ => Row.holdsValues.mpr

theorem setScalar (read : set rows = .ok vs) : scalar rows = vs.head?.elim (.error .noRows) .ok := by
  cases setHolds.mp read with
  | nil => rfl
  | cons first _ => exact Row.singleHolds.mpr first

theorem allSet {lists : List (List Value)} (read : all rows = .ok lists) (single : ∀ list ∈ lists, list.length = 1) :
    set rows = .ok lists.flatten := by
  rw [setHolds]
  rw [all, okEach] at read
  induction read with
  | nil => exact .nil
  | cons first _ ih =>
    obtain ⟨one, others⟩ := List.forall_mem_cons.mp single
    obtain ⟨v, rfl⟩ := List.length_eq_one_iff.mp one
    exact .cons (Row.holdsValues.mp first) (ih others)

end Rows

def Reply.readBy {α : Type} (sql : String) (read : List Row → Except Failure α) : Reply → Except Failure α
  | .failed report => .error (.execution sql report)
  | .answered rows _ => read rows

namespace Session
variable {σ α : Type} {respond : σ → Request → σ × Reply} {s : σ} {sql : String} {arguments : List Value}

def reply (respond : σ → Request → σ × Reply) (s : σ) (sql : String) (arguments : List Value) : Reply :=
  (respond s (.statement .command sql (arguments.map Value.bound))).2

theorem commandRead (read : List Row → Except Failure α) :
    (((command sql arguments).bind fun answer => ofExcept id (read answer.1)).run respond s).1 =
      (reply respond s sql arguments).readBy sql read := by
  rw [runSeq, command, send, run, reply]
  cases (respond s (.statement .command sql (arguments.map Value.bound))).2 with
  | failed report => rfl
  | answered rows affected =>
    dsimp only [run, Reply.readBy]
    cases read rows <;> rfl

theorem setRead : ((set sql arguments).run respond s).1 = (reply respond s sql arguments).readBy sql Rows.set :=
  commandRead Rows.set

theorem fetchAllRead :
    ((fetchAll sql arguments).run respond s).1 = (reply respond s sql arguments).readBy sql Rows.all :=
  commandRead Rows.all

theorem scalarRead :
    ((scalar sql arguments).run respond s).1 = (reply respond s sql arguments).readBy sql Rows.scalar :=
  commandRead Rows.scalar

theorem resultFormsAgree (respond : σ → Request → σ × Reply) (s : σ) (sql : String) (arguments : List Value) :
    (∀ vs, ((set sql arguments).run respond s).1 = .ok vs →
      ((fetchAll sql arguments).run respond s).1 = .ok (vs.map ([·])) ∧
      ((scalar sql arguments).run respond s).1 = vs.head?.elim (.error .noRows) .ok) ∧
    (∀ lists, ((fetchAll sql arguments).run respond s).1 = .ok lists → (∀ list ∈ lists, list.length = 1) →
      ((set sql arguments).run respond s).1 = .ok lists.flatten) ∧
    ∀ width, ((set sql arguments).run respond s).1 = .error (.columnCount width) ↔
      ∃ rows affected, reply respond s sql arguments = .answered rows affected ∧
        ∃ before row after, rows = before ++ row :: after ∧ (∀ earlier ∈ before, ∃ v, Row.Holds earlier v) ∧
          row.length = width ∧ width ≠ 1 := by
  simp only [setRead, fetchAllRead, scalarRead]
  cases reply respond s sql arguments with
  | failed report => simp [Reply.readBy]
  | answered rows affected =>
    simp only [Reply.readBy]
    refine ⟨fun vs read => ⟨Rows.setAll read, Rows.setScalar read⟩, fun lists => Rows.allSet, fun width => ?_⟩
    rw [Rows.setWidth]
    constructor
    · exact fun refused => ⟨rows, affected, rfl, refused⟩
    · rintro ⟨_, _, same, refused⟩
      cases same
      exact refused

def dueScript : Script := { replies := [.answered [[.int 3], [.null], [.text "late"]] 0] }

def wideScript : Script := { replies := [.answered [[.int 3], [.int 4, .null], [.single ⟨0⟩]] 0] }

theorem dueFormsAgree :
    (((set "SELECT [due] FROM loan" []).run Script.respond dueScript).1 = .ok [.int 3, .null, .text "late"] ∧
      ((fetchAll "SELECT [due] FROM loan" []).run Script.respond dueScript).1 =
        .ok [[.int 3], [.null], [.text "late"]] ∧
      ((scalar "SELECT [due] FROM loan" []).run Script.respond dueScript).1 = .ok (.int 3) ∧
      ((set "SELECT [due] FROM loan" []).run Script.respond dueScript).1 =
        .ok [[Value.int 3], [.null], [.text "late"]].flatten) ∧
    ((set "SELECT * FROM loan" []).run Script.respond wideScript).1 = .error (.columnCount 2) := by
  have read : ((set "SELECT [due] FROM loan" []).run Script.respond dueScript).1 =
      .ok [.int 3, .null, .text "late"] := rfl
  have before : ∀ earlier ∈ [[Cell.int 3]], ∃ v, Row.Holds earlier v :=
    List.forall_mem_singleton.mpr ⟨.int 3, .int 3, rfl, rfl⟩
  obtain ⟨fromSet, fromAll, -⟩ := resultFormsAgree Script.respond dueScript "SELECT [due] FROM loan" []
  obtain ⟨-, -, refused⟩ := resultFormsAgree Script.respond wideScript "SELECT * FROM loan" []
  obtain ⟨fetched, first⟩ := fromSet _ read
  exact ⟨⟨read, fetched, first, fromAll _ fetched (by decide)⟩,
    (refused 2).mpr ⟨_, 0, rfl, _, [.int 4, .null], [[.single ⟨0⟩]], rfl, before, rfl, by decide⟩⟩

end Session

end LiveSchema
