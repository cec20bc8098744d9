import LiveSchema.Proofs.Examine
/-! A table is altered in place in one transaction. Whatever refuses whichever request, changes of
definitions are sent only while the transaction is open, it is committed only when all of them were made,
and an update that fails leaves nothing behind but what was there before. -/
namespace LiveSchema

section Lists
variable {α : Type} {first rest before after : List α} {x : α}

theorem splitBehind (outside : x ∉ first) (same : first ++ rest = before ++ x :: after) :
    ∃ b, before = first ++ b ∧ rest = b ++ x :: after := by
  rcases List.append_eq_append_iff.mp same with ⟨b, whole, others⟩ | ⟨c, whole, others⟩
  · exact ⟨b, whole, others⟩
  · cases c with
    | nil => exact ⟨[], by simpa using whole.symm, others.symm⟩
    | cons y c =>
      obtain ⟨rfl, -⟩ := List.cons.inj others
      exact absurd (whole ▸ List.mem_append_right before List.mem_cons_self) outside

theorem splitAhead (outside : x ∉ rest) (same : first ++ rest = before ++ x :: after) :
    ∃ a, after = a ++ rest ∧ first = before ++ x :: a := by
  rcases List.append_eq_append_iff.mp same with ⟨b, _, others⟩ | ⟨c, whole, others⟩
  · exact absurd (others ▸ List.mem_append_right b List.mem_cons_self) outside
  · cases c with
    | nil => exact absurd (others ▸ List.mem_cons_self : x ∈ [] ++ rest) outside
    | cons y c =>
      obtain ⟨rfl, rest⟩ := List.cons.inj others
      exact ⟨c, rest, whole⟩

end Lists

def Request.Ends (r : Request) : Prop := r = .transaction .commit ∨ r = .transaction .rollback

namespace Exchange
variable {σ : Type}

def defines (x : Exchange σ) : Bool := x.asked fun _ => true

def Enclosed (before after : List (Exchange σ)) : Prop :=
  (∃ x ∈ before, x.Done (.transaction .start)) ∧ (∀ x ∈ before, ¬ x.request.Ends) ∧
    ∃ x ∈ after, x.request.Ends

end Exchange

namespace Session
variable {α σ : Type} {world : World σ} {s t u : σ} {log : List (Exchange σ)}

inductive Closes : Except Failure α → TransactionStep → Reply → Except Failure α → Prop where
  | committed (a : α) (rows affected) : Closes (.ok a) .commit (.answered rows affected) (.ok a)
  | uncommitted (a : α) (report) :
    Closes (.ok a) .commit (.failed report) (.error (.transaction .commit report))
  | undone (e : Failure) (rows affected) :
    Closes (.error e) .rollback (.answered rows affected) (.error e)
  | abandoned (e : Failure) (report) :
    Closes (.error e) .rollback (.failed report) (.error (.transaction .rollback report))

inductive Framed (world : World σ) (body : Session α) (s : σ) :
    List (Exchange σ) → Except Failure α → σ → Prop where
  | unopened {report u} (answer : world s (.transaction .start) (.failed report) u) :
    Framed world body s [⟨s, .transaction .start, .failed report, u⟩]
      (.error (.transaction .start report)) u
  | closed {rows affected t inner r v step reply u result}
    (opening : world s (.transaction .start) (.answered rows affected) t)
    (inside : Trace world body t inner (ended r) v)
    (ending : world v (.transaction step) reply u) (closes : Closes r step reply result) :
    Framed world body s (⟨s, .transaction .start, .answered rows affected, t⟩ :: inner ++
      [⟨v, .transaction step, reply, u⟩]) result u

theorem endOfClosing {r result : Except Failure α}
    (trace : Trace world (closing r) s log (ended result) u) :
    ∃ step reply, log = [⟨s, .transaction step, reply, u⟩] ∧ world s (.transaction step) reply u ∧
      Closes r step reply result := by
  cases r with
  | ok a =>
    obtain ⟨inner, committing, rfl⟩ := endOfMap trace
    obtain ⟨reply, rfl, answer, ⟨answered, rfl⟩ | ⟨report, rfl, rfl⟩⟩ := endOfStep committing
    · cases reply with
      | failed report => cases answered
      | answered rows affected => exact ⟨.commit, _, rfl, answer, .committed a rows affected⟩
    · exact ⟨.commit, _, rfl, answer, .uncommitted a report⟩
  | error e =>
    rcases endOfBind trace with ⟨_, first, rest, t, rfl, undoing, last⟩ | ⟨e', rfl, undoing⟩
    · obtain ⟨rfl, rfl, rfl⟩ := endOfFail last
      obtain ⟨reply, rfl, answer, ⟨answered, _⟩ | ⟨report, _, failed⟩⟩ := endOfStep undoing
      · cases reply with
        | failed report => cases answered
        | answered rows affected => exact ⟨.rollback, _, rfl, answer, .undone e rows affected⟩
      · cases failed
    · obtain ⟨reply, rfl, answer, ⟨_, made⟩ | ⟨report, rfl, failed⟩⟩ := endOfStep undoing
      · cases made
      · cases failed
        exact ⟨.rollback, _, rfl, answer, .abandoned e report⟩

theorem endOfTransaction {body : Session α} {result : Except Failure α}
    (trace : Trace world (inTransaction body) s log (ended result) u) :
    Framed world body s log result u := by
  rcases endOfBind trace with ⟨_, first, rest, t, rfl, starting, later⟩ | ⟨e, rfl, starting⟩
  · obtain ⟨reply, rfl, opening, ⟨answered, _⟩ | ⟨report, _, failed⟩⟩ := endOfStep starting
    · cases reply with
      | failed report => cases answered
      | answered rows affected =>
        have later : Trace world (body.outcome >>= closing) t rest (ended result) u := later
        rcases endOfBind later with ⟨r, inner, last, v, rfl, ran, ending⟩ | ⟨e, rfl, ran⟩
        · obtain ⟨r', same, inside⟩ := endOfOutcome ran
          cases same
          obtain ⟨step, reply, rfl, answer, closes⟩ := endOfClosing ending
          exact .closed opening inside answer closes
        · obtain ⟨r', same, _⟩ := endOfOutcome ran
          cases same
    · cases failed
  · obtain ⟨reply, rfl, answer, ⟨_, made⟩ | ⟨report, rfl, failed⟩⟩ := endOfStep starting
    · cases made
    · cases failed
      exact .unopened answer

def Made (d : Dialect) (c : Change) (x : Exchange σ) : Prop :=
  ∃ sql, c.sql d = .ok sql ∧ x.Done (.statement (.change c) sql [])

theorem endOfChange {d : Dialect} {c : Change} {result : Except Failure Unit}
    (trace : Trace world (change d c) s log (ended result) u) :
    (result = .ok () ∧ ∃ x, log = [x] ∧ Made d c x) ∨
      ((∃ e, result = .error e) ∧ ∀ x ∈ log, x.reply.succeeded = false) := by
  unfold change at trace
  cases written : c.sql d with
  | error e =>
    rw [written] at trace
    obtain ⟨rfl, rfl, rfl⟩ := endOfFail trace
    exact .inr ⟨⟨_, rfl⟩, List.forall_mem_nil _⟩
  | ok sql =>
    rw [written, sqlReady] at trace
    obtain ⟨inner, sent, rfl⟩ := endOfMap trace
    obtain ⟨reply, rfl, _, rfl⟩ := endOfSend sent
    cases reply with
    | failed report => exact .inr ⟨⟨_, rfl⟩, by simp [Reply.succeeded]⟩
    | answered rows affected => exact .inl ⟨rfl, _, rfl, sql, written, rfl, rfl⟩

theorem endOfChanges {d : Dialect} {cs : List Change} {result : Except Failure Unit}
    (trace : Trace world (changes d cs) s log (ended result) u) :
    (∃ a, result = .ok a) ↔ List.Forall₂ (Made d) cs log := by
  induction cs generalizing s log with
  | nil =>
    obtain ⟨rfl, rfl, rfl⟩ := endOfDone trace
    exact ⟨fun _ => .nil, fun _ => ⟨(), rfl⟩⟩
  | cons c rest ih =>
    have failed {x : Exchange σ} (refused : x.reply.succeeded = false) : ¬ Made d c x := by
      rintro ⟨sql, _, _, succeeded⟩
      simp [refused] at succeeded
    rcases endOfBind trace with ⟨_, first, later, t, rfl, here, after⟩ | ⟨e, rfl, here⟩
    · rcases endOfChange here with ⟨_, x, rfl, made⟩ | ⟨⟨e, same⟩, _⟩
      · simpa [made] using ih after
      · cases same
    · rcases endOfChange here with ⟨made, _⟩ | ⟨_, refused⟩
      · cases made
      · refine ⟨fun ⟨_, same⟩ => (nomatch same), fun all => ?_⟩
        cases all with
        | cons made _ => exact absurd made (failed (refused _ List.mem_cons_self))

theorem looksApart {x : Exchange σ} (looks : x.request.Looks) :
    x.defines = false ∧ ¬ x.request.Ends ∧ ∀ step, x.request ≠ .transaction step := by
  obtain ⟨q, sql, arguments, same⟩ := looks
  exact ⟨by simp [Exchange.defines, Exchange.asked, same, Request.changes],
    by simp [Request.Ends, same], by simp [same]⟩

theorem stepApart {x : Exchange σ} {step : TransactionStep} (asks : x.request = .transaction step) :
    x.defines = false := by
  simp [Exchange.defines, Exchange.asked, asks, Request.changes]

theorem sendsOnlyChanges (d : Dialect) (cs : List Change) :
    (changes d cs).Sends fun r => ∃ c sql, r = .statement (.change c) sql [] :=
  sendsChanges fun c _ sql _ => ⟨c, sql, rfl⟩

theorem changesDefine {d : Dialect} {cs : List Change} {q : Session Unit}
    (trace : Trace world (changes d cs) s log q u) :
    ∀ x ∈ log, x.defines = true ∧ ∀ step, x.request ≠ .transaction step := by
  intro x member
  obtain ⟨c, sql, same⟩ := traceSends (sendsOnlyChanges d cs) trace x member
  exact ⟨by simp [Exchange.defines, Exchange.asked, same, Request.changes], by simp [same]⟩

section
variable {d : Dialect} {cs : List Change} {result : Except Failure Unit}

theorem framedParts (framed : Framed world (changes d cs) s log result u) :
    (∃ x, log = [x] ∧ x.request = .transaction .start ∧ x.reply.succeeded = false) ∨
    ∃ opener inner closer, log = opener :: inner ++ [closer] ∧ opener.Done (.transaction .start) ∧
      (∀ x ∈ inner, x.defines = true ∧ ∀ step, x.request ≠ .transaction step) ∧ closer.request.Ends ∧
      (closer.request = .transaction .commit ↔ List.Forall₂ (Made d) cs inner) := by
  cases framed with
  | unopened answer => exact .inl ⟨_, rfl, rfl, rfl⟩
  | closed opening inside ending closes =>
    refine .inr ⟨_, _, _, rfl, ⟨rfl, rfl⟩, changesDefine inside, ?_⟩
    rw [← endOfChanges inside]
    cases closes <;> simp [Request.Ends]

theorem framedEncloses (framed : Framed world (changes d cs) s log result u)
    {before after : List (Exchange σ)} {x : Exchange σ} (split : log = before ++ x :: after)
    (defines : x.defines = true) : Exchange.Enclosed before after := by
  have other {y : Exchange σ} {step : TransactionStep} (asks : y.request = .transaction step) :
      x ≠ y := fun same => by simp [same, stepApart asks] at defines
  rcases framedParts framed with ⟨y, rfl, asks, _⟩ |
    ⟨opener, inner, closer, rfl, opened, only, ends, _⟩
  · have member : x ∈ [y] := split ▸ List.mem_append_right before List.mem_cons_self
    exact absurd (List.mem_singleton.mp member) (other asks)
  · have last : x ∉ [closer] := fun member => by
      rcases ends with commits | rolls
      · exact other commits (List.mem_singleton.mp member)
      · exact other rolls (List.mem_singleton.mp member)
    obtain ⟨a, rfl, opening⟩ := splitAhead last split
    cases before with
    | nil => exact absurd (List.cons.inj opening).1.symm (other opened.1)
    | cons y before =>
      obtain ⟨rfl, rfl⟩ := List.cons.inj opening
      refine ⟨⟨_, List.mem_cons_self, opened⟩, List.forall_mem_cons.mpr ⟨?_, fun z member => ?_⟩,
        closer, List.mem_append_right a (List.mem_singleton_self _), ends⟩
      · simp [Request.Ends, opened.1]
      · have inside := (only z (List.mem_append_left _ member)).2
        simp [Request.Ends, inside]

theorem framedCommits (framed : Framed world (changes d cs) s log result u) :
    (∃ x ∈ log, x.request = .transaction .commit) ↔
      (∃ x ∈ log, x.Done (.transaction .start)) ∧
        List.Forall₂ (Made d) cs (log.filter Exchange.defines) := by
  rcases framedParts framed with ⟨y, rfl, asks, refused⟩ |
    ⟨opener, inner, closer, rfl, opened, only, ends, commits⟩
  · simp [Exchange.Done, asks, refused]
  · have outer : opener.defines = false ∧ closer.defines = false :=
      ⟨stepApart opened.1, ends.elim stepApart stepApart⟩
    have sent : (opener :: inner ++ [closer]).filter Exchange.defines = inner := by
      have all : inner.filter Exchange.defines = inner :=
        List.filter_eq_self.mpr fun x member => (only x member).1
      simp [outer, all]
    rw [sent, ← commits]
    constructor
    · rintro ⟨x, member, asks⟩
      refine ⟨⟨opener, List.mem_cons_self, opened⟩, ?_⟩
      rcases List.mem_append.mp member with inside | last
      · rcases List.mem_cons.mp inside with rfl | inside
        · rw [opened.1] at asks
          cases asks
        · exact absurd asks ((only x inside).2 _)
      · rwa [List.mem_singleton.mp last] at asks
    · exact fun made => ⟨closer, List.mem_append_right _ (List.mem_singleton_self _), made.2⟩

end

section Looked
variable {first rest : List (Exchange σ)} (looks : ∀ x ∈ first, x.request.Looks)
include looks

theorem definesLater : (first ++ rest).filter Exchange.defines = rest.filter Exchange.defines := by
  have nothing : first.filter Exchange.defines = [] :=
    List.filter_eq_nil_iff.mpr fun x member => by simp [(looksApart (looks x member)).1]
  rw [List.filter_append, nothing, List.nil_append]

theorem stepsLater {p : Exchange σ → Prop} (asks : ∀ x, p x → ∃ step, x.request = .transaction step) :
    (∃ x ∈ first ++ rest, p x) ↔ ∃ x ∈ rest, p x := by
  refine ⟨fun ⟨x, member, here⟩ => ?_, fun ⟨x, member, here⟩ =>
    ⟨x, List.mem_append_right first member, here⟩⟩
  obtain ⟨step, asked⟩ := asks x here
  rcases List.mem_append.mp member with early | late
  · exact absurd asked ((looksApart (looks x early)).2.2 step)
  · exact ⟨x, late, here⟩

theorem enclosedLater
    (enclosed : ∀ before x after, rest = before ++ x :: after → x.defines = true →
      Exchange.Enclosed before after) (before : List (Exchange σ)) (x : Exchange σ)
    (after : List (Exchange σ)) (split : first ++ rest = before ++ x :: after)
    (defines : x.defines = true) : Exchange.Enclosed before after := by
  have outside : x ∉ first := fun early => by
    simp [(looksApart (looks x early)).1] at defines
  obtain ⟨b, rfl, within⟩ := splitBehind outside split
  obtain ⟨⟨opener, member, opened⟩, unended, later⟩ := enclosed b x after within defines
  refine ⟨⟨opener, List.mem_append_right first member, opened⟩, fun y member => ?_, later⟩
  rcases List.mem_append.mp member with early | late
  · exact (looksApart (looks y early)).2.1
  · exact unended y late

end Looked

section
variable {d : Dialect} {m : Model} {live : Table} {diff : TableDiff}

theorem endOfAlteration (computed : TableDiff.compute d m live = .ok diff)
    (additive : diff.strategy = .additive) {result : Except Failure SchemaUpdate}
    (trace : Trace world (act d m (.object (.table live))) s log (ended result) u) :
    (log = [] ∧ u = s ∧ ∃ e, result = .error e) ∨
      ∃ inner, Framed world (changes d (diff.additiveChanges m live)) s log inner u ∧
        ((∃ a, inner = .ok a) ↔ ∃ a, result = .ok a) := by
  have chosen : act d m (.object (.table live)) =
      if m.isView then .fail (.mismatch m.table) else updateTable d m live := rfl
  rw [chosen] at trace
  split at trace
  · obtain ⟨rfl, rfl, rfl⟩ := endOfFail trace
    exact .inl ⟨rfl, rfl, _, rfl⟩
  · rw [updateTable, computed, sqlReady, additive] at trace
    obtain ⟨report, altering, rfl⟩ := endOfMap trace
    obtain ⟨inner, framed, rfl⟩ := endOfMap altering
    refine .inr ⟨inner, endOfTransaction framed, ?_⟩
    cases inner <;> simp [Except.map]

end

end Session

section
variable {d : Dialect} {s t : Database} {r : Request} {reply : Reply}

theorem Database.unopened (unsaved : s.saved = none) : s.rolledBack = s := by
  cases s
  cases unsaved
  rfl

theorem statementKeeps (other : ∀ step, r ≠ .transaction step) (answer : Answers d s r reply t) :
    t.saved = s.saved := by
  cases answer with
  | refused => rfl
  | effect => rfl
  | abandoned | start | commit | rollback => exact absurd rfl (other _)

theorem answersRolledBack {step : TransactionStep} (ending : Request.Ends (.transaction step))
    (uncommitted : step = .rollback ∨ reply.succeeded = false)
    (answer : Answers d s (.transaction step) reply t) : t.rolledBack = s.rolledBack := by
  cases answer with
  | refused | abandoned | rollback => simp [Database.rolledBack]
  | start => simp [Request.Ends] at ending
  | commit => simp [Reply.succeeded] at uncommitted

end

namespace Session
variable {world : World Database} {d : Dialect} {s t u : Database} {log : List (Exchange Database)}

theorem framedUndone (honest : ∀ s r reply t, world s r reply t → Answers d s r reply t)
    (unsaved : s.saved = none) {cs : List Change} {e : Failure}
    (framed : Framed world (changes d cs) s log (.error e) u) : u.rolledBack = s := by
  have alone := Database.unopened unsaved
  cases framed with
  | unopened answer =>
    cases honest _ _ _ _ answer with
    | refused => exact alone
    | abandoned ending => exact absurd rfl ending
  | @closed rows affected t inner r v step reply _ _ opening inside ending closes =>
    have opened : t.saved = some s.store := by
      cases honest _ _ _ _ opening with
      | start => rfl
    have kept : v.saved = some s.store := by
      refine traceKeeps (·.saved = some s.store) (sendsOnlyChanges d cs) ?_ opened inside
      rintro s r reply t saved ⟨c, sql, rfl⟩ answer
      exact (statementKeeps (by simp) (honest _ _ _ _ answer)).trans saved
    have back : v.rolledBack = s := by
      rw [Database.rolledBack, kept]
      exact alone ▸ congrArg (Database.mk · none) (by simp [Database.rolledBack, unsaved])
    have ends : Request.Ends (.transaction step) ∧ (step = .rollback ∨ reply.succeeded = false) := by
      cases closes <;> simp [Request.Ends, Reply.succeeded]
    exact (answersRolledBack ends.1 ends.2 (honest _ _ _ _ ending)).trans back

/-- Whoever answers, an update that finds a table to be altered in place changes definitions only within a
transaction, and commits it just if it was opened and every change was made. Where a transaction has no
effect until it is committed, an update that fails leaves the database as it was. -/
theorem alterationIsAtomic {m : Model} {live : Table} {diff : TableDiff}
    {first rest : List (Exchange Database)} {result : Except Failure SchemaUpdate}
    (computed : TableDiff.compute d m live = .ok diff) (additive : diff.strategy = .additive)
    (looked : Trace world (examine d m) s first (.done (.object (.table live))) t)
    (trace : Trace world (update d m) s (first ++ rest) (ended result) u) :
    (∀ before x after, first ++ rest = before ++ x :: after → x.defines = true →
      Exchange.Enclosed before after) ∧
    ((∃ x ∈ first ++ rest, x.request = .transaction .commit) ↔
      (∃ x ∈ first ++ rest, x.Done (.transaction .start)) ∧
        List.Forall₂ (Made d) (diff.additiveChanges m live)
          ((first ++ rest).filter Exchange.defines)) ∧
    ((∀ s r reply t, world s r reply t → Answers d s r reply t) → s.saved = none →
      ∀ e, result = .error e → u.rolledBack = s) := by
  rw [updateParts] at trace
  have acted := traceContinues looked trace
  have looks := traceSends (examineLooks d m) looked
  have still (honest : ∀ s r reply t, world s r reply t → Answers d s r reply t) : t = s :=
    traceKeeps (· = s) (examineLooks d m)
      (fun _ _ _ _ same looks answer => (answersLook looks (honest _ _ _ _ answer)).trans same) rfl looked
  rw [definesLater looks, stepsLater looks fun x asks => ⟨_, asks⟩, stepsLater looks fun x done => ⟨_, done.1⟩]
  rcases endOfAlteration computed additive acted with ⟨rfl, rfl, _⟩ | ⟨inner, framed, same⟩
  · refine ⟨enclosedLater looks fun before x after split => ?_, by simp, fun honest unsaved e _ => ?_⟩
    · simp at split
    · cases still honest
      exact Database.unopened unsaved
  · refine ⟨enclosedLater looks fun _ _ _ => framedEncloses framed, framedCommits framed,
      fun honest unsaved e failed => ?_⟩
    cases still honest
    cases inner with
    | error e => exact framedUndone honest unsaved framed
    | ok a =>
      obtain ⟨b, made⟩ := same.mp ⟨a, rfl⟩
      rw [failed] at made
      cases made

end Session

def memoMark : Column := { Column.declared "mark" .int with field := some "Mark" }

def memoModel : Model :=
  { Model.empty "memo" .table with
    columns := [{ Column.declared "body" .text with field := some "Body" }, memoMark]
    indices := [⟨"text", ["body"]⟩] }

def memoTable : StoredTable :=
  { columns := [Column.introspected "body" "TEXT"]
    uniques := []
    indices := [Store.indexOf "memo" ⟨"old", ["body"]⟩]
    rows := [fun _ => .text "milk"] }

def memoStore : Store := Store.put (fun _ => none) "memo" memoTable

def memoGrown : StoredTable := { memoTable with columns := memoTable.columns ++ [memoMark] }

def memoAdded : Store := memoStore.put "memo" memoGrown

def memoDropped : Store := memoAdded.withoutIndex (Dialect.sqlite.indexName "memo" "old")

def memoBare : Store := memoDropped.withoutIndex (Dialect.sqlite.indexName "memo" "text")

def memoLive : Table := ⟨"memo", [Column.introspected "body" "TEXT"], [⟨"old", ["body"]⟩], []⟩

def memoLooks : List (Request × Reply × Database) :=
  [(CatalogQuery.request .sqlite (.presence "memo_original"), .answered [] 0, ⟨memoStore, none⟩),
    (CatalogQuery.request .sqlite (.presence "memo"), .answered [[.text "memo"]] 0, ⟨memoStore, none⟩),
    (CatalogQuery.request .sqlite (.entry "memo"), .answered [[.text "table", .text "memo",
      .text "CREATE TABLE memo ([body] TEXT)"]] 0, ⟨memoStore, none⟩),
    (CatalogQuery.request .sqlite (.indices "memo"),
      .answered [[.text "CREATE INDEX idx_memo_old ON memo ([body])"]] 0, ⟨memoStore, none⟩)]

def memoChanges : List (Request × Reply × Database) :=
  [(.transaction .start, .answered [] 0, ⟨memoStore, some memoStore⟩),
    (Change.request .sqlite (.addColumn "memo" memoMark), .answered [] 0, ⟨memoAdded, some memoStore⟩),
    (Change.request .sqlite (.dropIndex "memo" "old"), .answered [] 0, ⟨memoDropped, some memoStore⟩),
    (Change.request .sqlite (.dropIndexIfExists "memo" "text"), .answered [] 0, ⟨memoBare, some memoStore⟩),
    (Change.request .sqlite (.createIndex "memo" ⟨"text", ["body"]⟩), .failed "disk full",
      ⟨memoBare, some memoStore⟩),
    (.transaction .rollback, .failed "connection lost", ⟨memoBare, some memoStore⟩)]

theorem memoAnswered : Session.Answered (Answers .sqlite) ⟨memoStore, none⟩ memoLooks ∧
    Session.Answered (Answers .sqlite) ⟨memoStore, none⟩ (memoLooks ++ memoChanges) := by
  have present : (Purpose.catalog (.presence "memo")).Effect .sqlite [[.text "memo"]] memoStore memoStore :=
    ⟨rfl, by decide⟩
  have absent : (Purpose.catalog (.presence "memo_original")).Effect .sqlite [] memoStore memoStore :=
    ⟨rfl, by decide⟩
  have known : memoAdded.HasIndex (Dialect.sqlite.indexName "memo" "old") :=
    ⟨nameKey "memo", memoGrown, rfl, _, List.mem_singleton_self _, rfl⟩
  exact ⟨⟨.effect absent, .effect present, .effect rfl, .effect rfl, trivial⟩,
    .effect absent, .effect present, .effect rfl, .effect rfl, .start rfl,
    .effect ⟨memoTable, memoTable.rows, rfl, .cons (fun _ _ => rfl) .nil, rfl⟩, .effect ⟨known, rfl⟩,
    .effect rfl, .refused, .refused, trivial⟩

theorem memoAlterationIsAtomic : ∃ log,
    Session.Trace (Answers .sqlite) (Session.update .sqlite memoModel) ⟨memoStore, none⟩ log
      (.fail (.transaction .rollback "connection lost")) ⟨memoBare, some memoStore⟩ ∧
    (∀ before x after, log = before ++ x :: after → x.defines = true →
      Exchange.Enclosed before after) ∧
    (log.filter Exchange.defines).length = 4 ∧ (∀ x ∈ log, x.request ≠ .transaction .commit) ∧
    Database.rolledBack ⟨memoBare, some memoStore⟩ = ⟨memoStore, none⟩ := by
  obtain ⟨looks, all⟩ := memoAnswered
  have looked := Session.followedTrace (p := Session.examine .sqlite memoModel) (by rfl) looks
  have trace := Session.followedTrace (p := Session.update .sqlite memoModel) (by rfl) all
  have found : (Session.examine .sqlite memoModel).followed memoLooks =
      .done (.object (.table memoLive)) := by rfl
  have failed : (Session.update .sqlite memoModel).followed (memoLooks ++ memoChanges) =
      Session.ended (.error (.transaction .rollback "connection lost")) := by rfl
  have split : Exchange.chain ⟨memoStore, none⟩ (memoLooks ++ memoChanges) =
      Exchange.chain ⟨memoStore, none⟩ memoLooks ++ Exchange.chain ⟨memoStore, none⟩ memoChanges := rfl
  rw [found] at looked
  rw [failed, split] at trace
  have computed : TableDiff.compute .sqlite memoModel memoLive = .ok ⟨[memoMark], [], [], true, true⟩ := by
    rfl
  obtain ⟨enclosed, _, undone⟩ := Session.alterationIsAtomic computed rfl looked trace
  exact ⟨_, trace, enclosed, rfl, by decide, undone (fun _ _ _ _ answer => answer) rfl _ rfl⟩

end LiveSchema
