import LiveSchema.Proofs.FixedPoint
/-! An update looks first and acts then. What it finds decides which requests it makes; where the catalog
tells the truth, so does the finding. -/
namespace LiveSchema

namespace Session
variable {α β γ σ : Type} {world : World σ} {s t u : σ} {log : List (Exchange σ)}

theorem bindAssoc (p : Session α) (f : α → Session β) (g : β → Session γ) :
    p >>= f >>= g = p >>= fun a => f a >>= g := by
  induction p with
  | done a => rfl
  | fail e => rfl
  | ask request next ih => exact congrArg (Session.ask request) (funext ih)

theorem traceContinues {p : Session α} {f : α → Session β} {a : α} {first rest : List (Exchange σ)}
    {q : Session β} (here : Trace world p s first (.done a) t)
    (trace : Trace world (p >>= f) s (first ++ rest) q u) : Trace world (f a) t rest q u := by
  generalize ended : Session.done a = last at here
  induction here with
  | stop p s =>
    subst ended
    exact trace
  | ask answer later ih =>
    cases trace with
    | ask answer' after => exact ih after ended

theorem splitBind {p : Session α} {f : α → Session β} {q : Session β}
    (trace : Trace world (p >>= f) s log q u) :
    (∃ p', Trace world p s log p' u) ∨ ∃ a first rest t, log = first ++ rest ∧
      Trace world p s first (.done a) t ∧ Trace world (f a) t rest q u := by
  induction p generalizing s log with
  | done a => exact .inr ⟨a, [], log, s, rfl, .stop _ _, trace⟩
  | fail e =>
    cases trace
    exact .inl ⟨_, .stop _ _⟩
  | ask request next ih =>
    cases trace with
    | stop => exact .inl ⟨_, .stop _ _⟩
    | ask answer later =>
      rcases ih _ later with ⟨p', here⟩ | ⟨a, first, rest, t, rfl, here, after⟩
      · exact .inl ⟨p', .ask answer here⟩
      · exact .inr ⟨a, _ :: first, rest, t, rfl, .ask answer here, after⟩

section Update

inductive Finding where
  | backup
  | nothing
  | object (schema : Schema)

def examine (d : Dialect) (m : Model) : Session Finding := do
  let pending ← objectExists d (backupName m.table)
  if pending then return .backup
  else do
    let present ← objectExists d m.table
    if present then return .object (← readSchema d m.table) else return .nothing

def act (d : Dialect) (m : Model) : Finding → Session SchemaUpdate
  | .backup => .fail (.pendingBackup m.table (backupName m.table))
  | .nothing => do
    create d m
    return .created
  | .object (.view v) => do
    change d (.dropView v.name)
    create d m
    return .viewReplaced
  | .object (.table live) => if m.isView then .fail (.mismatch m.table) else updateTable d m live

theorem updateParts (d : Dialect) (m : Model) : update d m = examine d m >>= act d m := by
  have live : updateLive d m = readSchema d m.table >>= fun schema => act d m (.object schema) := by
    refine congrArg (readSchema d m.table >>= ·) (funext fun schema => ?_)
    cases schema <;> rfl
  unfold update examine
  rw [bindAssoc]
  refine congrArg (_ >>= ·) (funext fun pending => ?_)
  cases pending with
  | true => rfl
  | false =>
    simp only [Bool.false_eq_true, if_false]
    rw [bindAssoc]
    refine congrArg (_ >>= ·) (funext fun present => ?_)
    cases present with
    | true =>
      simp only [if_true]
      rw [bindAssoc, live]
      rfl
    | false => rfl

theorem examineLooks (d : Dialect) (m : Model) : (examine d m).Sends Request.Looks := by
  have catalog (q : CatalogQuery) (sql : String) :
      Request.Looks (.statement (.catalog q) sql q.arguments) := ⟨q, sql, _, rfl⟩
  refine sendsBind (sendsObjectExists catalog d _) fun pending => ?_
  cases pending with
  | true => trivial
  | false =>
    refine sendsBind (sendsObjectExists catalog d _) fun present => ?_
    cases present with
    | true => exact sendsBind (sendsReadSchema catalog d _) fun _ => trivial
    | false => trivial

end Update

section Found
variable {m : Model} {s u : Database} {log : List (Exchange Database)}

inductive Found (m : Model) (s : Store) : Finding → Prop where
  | backup (occupied : s.find (backupName m.table) ≠ none) : Found m s .backup
  | nothing (free : s.find (backupName m.table) = none) (absent : s.find m.table = none) :
    Found m s .nothing
  | view {v : View} (free : s.find (backupName m.table) = none) : Found m s (.object (.view v))
  | table {t n groups} (free : s.find (backupName m.table) = none)
    (found : s.table? m.table = some t) (same : nameKey n = nameKey m.table)
    (read : List.Forall₂ (ReadsAs n) t.indices groups) :
    Found m s (.object (.table (t.reading n groups)))

theorem presenceKnown {name : String} {present : Bool}
    (trace : Trace Tells (objectExists .sqlite name) s log (.done present) u) :
    u = s ∧ present = (s.store.find name).isSome :=
  ⟨(lookingEnd (looksObjectExists name) trace).1, objectExistsKnown trace⟩

theorem examineFound {f : Finding} (trace : Trace Tells (examine .sqlite m) s log (.done f) u) :
    u = s ∧ Found m s.store f := by
  obtain ⟨pending, first, rest, t, rfl, asking, later⟩ := traceOfBind trace
  obtain ⟨rfl, known⟩ := presenceKnown asking
  cases pending with
  | true =>
    cases later
    exact ⟨rfl, .backup (Option.isSome_iff_ne_none.mp known.symm)⟩
  | false =>
    have free := Option.not_isSome_iff_eq_none.mp (Bool.eq_false_iff.mp known.symm)
    obtain ⟨present, first, rest, t, rfl, asking, later⟩ := traceOfBind later
    obtain ⟨rfl, known⟩ := presenceKnown asking
    cases present with
    | false =>
      cases later
      exact ⟨rfl, .nothing free (Option.not_isSome_iff_eq_none.mp (Bool.eq_false_iff.mp known.symm))⟩
    | true =>
      obtain ⟨schema, first, rest, t, rfl, reading, after⟩ := traceOfBind later
      obtain ⟨rfl, -⟩ := lookingEnd (looksReadSchema m.table) reading
      cases after
      have told : Trace Tells _ _ _ (ended (.ok schema)) _ := reading
      rcases readSchemaEnd told with ⟨_, e, failed⟩ | told
      · cases failed
      generalize object : Store.find _ m.table = found at told
      generalize same : Except.ok schema = answer at told
      cases told with
      | absent => cases same
      | view =>
        cases same
        exact ⟨rfl, .view free⟩
      | table named read =>
        cases same
        exact ⟨rfl, .table free (Store.tableOfFind object) named read⟩

theorem examineTrace (free : s.store.find (backupName m.table) = none)
    (absent : s.store.find m.table = none) :
    ∃ log, Trace Tells (examine .sqlite m) s log (.done .nothing) s := by
  obtain ⟨first, pending⟩ := objectExistsTrace (s := s) (backupName m.table)
  obtain ⟨second, present⟩ := objectExistsTrace (s := s) m.table
  rw [free] at pending
  rw [absent] at present
  exact ⟨_, bindTrace pending (bindLast present rfl)⟩

theorem updateCreates {s : Store} (isTable : m.source = .table)
    (free : s.find (backupName m.table) = none) (absent : s.find m.table = none) : ∃ log t,
      Trace Tells (update .sqlite m) ⟨s, none⟩ log (.done .created) ⟨t, none⟩ ∧
      Change.Effects (creation m) s t ∧
      ∀ c ∈ creation m, ∃ x ∈ log, x.did (· = c) = true ∧ c.Effect .sqlite x.before.store x.after.store := by
  obtain ⟨t, effects⟩ := Store.creationEffects absent
  obtain ⟨first, looking⟩ := examineTrace (s := ⟨s, none⟩) free absent
  obtain ⟨log, creating, all⟩ := changesTrace effects none
  have creating : Trace Tells (create .sqlite m) ⟨s, none⟩ log (.done ()) ⟨t, none⟩ := by
    unfold create
    rw [isTable]
    exact creating
  refine ⟨first ++ log, t, ?_, effects, fun c member => ?_⟩
  · rw [updateParts]
    exact bindTrace looking (bindLast creating rfl)
  · obtain ⟨x, among, did⟩ := all c member
    exact ⟨x, List.mem_append_right _ among, did⟩

end Found

end Session

end LiveSchema
