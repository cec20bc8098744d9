import LiveSchema.Proofs.FirstFailure
/-! Refusals leave everything alone. An update that fails has done no more than look exactly if its failure is
none of a request, or if the first request that failed was a look itself. That a backup is left over is known
from the very first look. -/
namespace LiveSchema

namespace Exchange
variable {σ : Type}

def fails (x : Exchange σ) : Bool := x.failure?.isSome

def Finds (x : Exchange σ) (name : String) : Prop :=
  ∃ sql row rows affected found, x.request = .statement (.catalog (.presence name)) sql [.text name] ∧
    x.reply = .answered (row :: rows) affected ∧ row.text? 0 = some found

end Exchange

def Refusal {σ : Type} (log : List (Exchange σ)) (e : Failure) : Prop :=
  e.unasked = true ∨ ∃ x, log.find? Exchange.fails = some x ∧ x.request.Looks

section Blame
variable {σ : Type} {log : List (Exchange σ)} {e : Failure}

theorem findNone : log.find? Exchange.fails = none ↔ ∀ x ∈ log, x.failure? = none := by
  simp [List.find?_eq_none, Exchange.fails]

theorem firstFailing {x : Exchange σ} (found : log.find? Exchange.fails = some x) :
    ∃ earlier later c, log = earlier ++ x :: later ∧ earlier.foldl Exchange.blame none = none ∧
      x.failure? = some c := by
  obtain ⟨fails, earlier, later, rfl, quiet⟩ := List.find?_eq_some_iff_append.mp found
  obtain ⟨c, told⟩ := Option.isSome_iff_exists.mp fails
  refine ⟨earlier, later, c, rfl, blameNone.mpr fun y member => ?_, told⟩
  simpa [Exchange.fails] using quiet y member

theorem blamedFirst (blamed : log.foldl Exchange.blame none = some e) :
    (∃ x, log.find? Exchange.fails = some x) ∧ e.unasked = false := by
  cases found : log.find? Exchange.fails with
  | none =>
    rw [blameNone.mpr (findNone.mp found)] at blamed
    cases blamed
  | some x =>
    refine ⟨⟨x, rfl⟩, ?_⟩
    obtain ⟨earlier, later, c, rfl, untold, told⟩ := firstFailing found
    rw [List.foldl_append, untold, List.foldl_cons, Exchange.blame, told] at blamed
    obtain ⟨e', same, ends⟩ := blameLater c later
    cases same.symm.trans blamed
    rcases ends with ⟨rfl, _⟩ | ⟨_, _, _, _, _, rfl⟩
    · exact failureAsked told
    · rfl

end Blame

namespace Session
variable {α σ : Type} {world : World σ} {s u : σ} {log : List (Exchange σ)}

section Accounted
variable {opens : Request → Prop} {own : Failure → Prop} {p : Session α}
  (accounts : Accounts world opens own p)
include accounts

theorem accountedQuiet {a : α} (trace : Trace world p s log (ended (.ok a)) u) :
    log.find? Exchange.fails = none :=
  findNone.mpr (blameNone.mp (obeyedResult (accounts s) trace))

theorem accountedFailure {e : Failure} (trace : Trace world p s log (ended (.error e)) u) :
    (∃ x, log.find? Exchange.fails = some x ∧ opens x.request ∧ e.unasked = false) ∨ own e := by
  rcases obeyedResult (accounts s) trace with blamed | ⟨_, admitted⟩
  · obtain ⟨⟨x, failing⟩, asked⟩ := blamedFirst blamed
    obtain ⟨earlier, later, c, rfl, untold, _⟩ := firstFailing failing
    have along := (alongAppend _ _ _).mp (obeyedTrace (accounts s) trace)
    exact .inl ⟨x, failing, along.2.1 untold, asked⟩
  · exact .inr admitted

end Accounted

def Acts (r : Request) : Prop := ¬ r.Looks ∧ r ≠ .transaction .rollback

def FailsAsked (world : World σ) (p : Session α) : Prop := Accounts world (fun _ => True) (fun _ => False) p

theorem anyActs (r : Request) (_ : ¬ r.Looks) (_ : r ≠ .transaction .rollback) : True := trivial

theorem askedFailure {p : Session α} {e : Failure} (asks : FailsAsked world p)
    (trace : Trace world p s log (ended (.error e)) u) : (∃ x ∈ log, x.fails = true) ∧ e.unasked = false := by
  obtain ⟨x, failing, _, asked⟩ := (accountedFailure asks trace).resolve_right id
  exact ⟨⟨x, List.mem_of_find?_eq_some failing, List.find?_some failing⟩, asked⟩

section Update
variable {d : Dialect} {m : Model}

theorem actedRefusal {f : Finding} {e : Failure} {first rest : List (Exchange σ)} (t : σ)
    (looked : Trace world (examine .sqlite m) s first (ended (.ok f)) t)
    (acted : Trace world (act .sqlite m f) t rest (ended (.error e)) u) (refusal : Refusal (first ++ rest) e) :
    rest = [] := by
  have ways : f = .backup ∨ (∃ name, act .sqlite m f = .fail (.mismatch name)) ∨
      Accounts world Acts (fun _ => False) (act .sqlite m f) :=
    actAccounts (fun _ acts other => ⟨acts, other⟩) m f
  rcases ways with rfl | ⟨name, refuses⟩ | accounts
  · exact (endOfFail acted).1
  · rw [refuses] at acted
    exact (endOfFail acted).1
  · obtain ⟨x, failing, acts, asked⟩ := (accountedFailure accounts acted).resolve_right id
    have examining : Accounts world (fun _ => True) (·.unasked = true) (examine .sqlite m) :=
      accountsExamine (fun _ _ => trivial) (fun _ => rfl) m
    have quiet : first.find? Exchange.fails = none := accountedQuiet examining looked
    rcases refusal with unasked | ⟨y, first, looks⟩
    · rw [asked] at unasked
      contradiction
    · rw [List.find?_append, quiet, Option.none_or, failing] at first
      cases first
      exact absurd looks acts.1

theorem refusalLooks {e : Failure} (trace : Trace world (update d m) s log (ended (.error e)) u) :
    Refusal log e ↔ ∀ x ∈ log, x.request.Looks := by
  cases d with
  | sqlServer =>
    obtain ⟨e', refuses⟩ := unimplementedUpdate m
    rw [refuses] at trace
    obtain ⟨rfl, _, same⟩ := endOfFail trace
    cases same
    exact ⟨fun _ => List.forall_mem_nil _, fun _ => .inl rfl⟩
  | sqlite =>
    refine ⟨fun refusal => ?_, fun looks => ?_⟩
    · rw [updateParts] at trace
      rcases endOfBind trace with ⟨f, first, rest, t, rfl, looked, acted⟩ | ⟨e, _, looked⟩
      · rw [actedRefusal t looked acted refusal, List.append_nil]
        exact traceSends (examineLooks .sqlite m) looked
      · exact traceSends (examineLooks .sqlite m) looked
    · rcases accountedFailure (updateAccounts m) trace with ⟨x, failing, _⟩ | unasked
      · exact .inr ⟨x, failing, looks x (List.mem_of_find?_eq_some failing)⟩
      · exact .inl unasked

theorem existsFinds {name : String} {result : Except Failure Bool}
    (trace : Trace world (objectExists .sqlite name) s log (ended result) u) :
    ∃ x, log = [x] ∧ (result = .ok true ↔ x.Finds name) := by
  obtain ⟨sql, written⟩ := queryWritten (.presence name)
  obtain ⟨found, asking, rfl⟩ := endOfMap trace
  rw [askCatalog, written, sqlReady] at asking
  rcases endOfBind asking with ⟨answer, first, rest, t, rfl, sent, decoding⟩ | ⟨e, rfl, sent⟩
  · obtain ⟨reply, rfl, _, replied⟩ := endOfSend sent
    cases reply with
    | failed report => cases replied
    | answered rows affected =>
      cases replied
      cases rows with
      | nil =>
        obtain ⟨rfl, _, rfl⟩ := endOfDone decoding
        exact ⟨_, rfl, by simp [Exchange.Finds, Except.map]⟩
      | cons row rows =>
        cases text : row.text? 0 with
        | none =>
          have read : (List.take 1 (row :: rows)).mapM (Row.text? · 0) = none := by simp [text]
          simp only [read] at decoding
          obtain ⟨rfl, _, rfl⟩ := endOfFail decoding
          exact ⟨_, rfl, by simp [Exchange.Finds, Except.map, text]⟩
        | some found =>
          have read : (List.take 1 (row :: rows)).mapM (Row.text? · 0) = some [found] := by simp [text]
          simp only [read] at decoding
          obtain ⟨rfl, _, rfl⟩ := endOfDone decoding
          exact ⟨_, rfl, fun _ => ⟨sql, row, rows, affected, found, rfl, rfl, text⟩, fun _ => rfl⟩
  · obtain ⟨reply, rfl, _, replied⟩ := endOfSend sent
    cases reply with
    | failed report => exact ⟨_, rfl, by simp [Exchange.Finds, Except.map]⟩
    | answered rows affected => cases replied

theorem backupFound (trace : Trace world (examine .sqlite m) s log (ended (.ok .backup)) u) :
    ∃ x, log = [x] ∧ x.Finds (backupName m.table) := by
  obtain ⟨pending, first, rest, t, rfl, asking, later⟩ := endOfBindOk trace
  obtain ⟨x, rfl, finds⟩ := existsFinds asking
  cases pending with
  | true =>
    obtain ⟨rfl, _, _⟩ := endOfDone later
    exact ⟨x, rfl, finds.mp rfl⟩
  | false =>
    obtain ⟨present, second, last, v, rfl, _, ending⟩ := endOfBindOk later
    cases present with
    | true =>
      obtain ⟨_, _, _, _, _, _, ending⟩ := endOfBindOk ending
      cases (endOfDone ending).2.2
    | false => cases (endOfDone ending).2.2

theorem pendingFound {result : Except Failure SchemaUpdate}
    (trace : Trace world (update d m) s log (ended result) u) (table backup : String) :
    result = .error (.pendingBackup table backup) ↔ table = m.table ∧ backup = backupName m.table ∧
      ∃ x rest, log = x :: rest ∧ x.Finds (backupName m.table) := by
  cases d with
  | sqlServer =>
    obtain ⟨rfl, _, rfl⟩ := endOfFail trace
    simp
  | sqlite =>
    constructor
    · rintro rfl
      rw [updateParts] at trace
      rcases endOfBind trace with ⟨f, first, rest, t, rfl, looked, acted⟩ | ⟨e, same, looked⟩
      · have ways : f = .backup ∨ (∃ name, act .sqlite m f = .fail (.mismatch name)) ∨
            FailsAsked world (act .sqlite m f) := actAccounts anyActs m f
        rcases ways with rfl | ⟨name, refuses⟩ | accounts
        · obtain ⟨rfl, _, same⟩ := endOfFail acted
          cases same
          obtain ⟨x, rfl, finds⟩ := backupFound looked
          exact ⟨rfl, rfl, x, [], rfl, finds⟩
        · rw [refuses] at acted
          cases (endOfFail acted).2.2
        · cases (askedFailure accounts acted).2
      · cases same
        have accounts : Accounts world (fun _ => True) (fun e => ∃ cause, e = .schema cause) (examine .sqlite m) :=
          accountsExamine (fun _ _ => trivial) (fun cause => ⟨cause, rfl⟩) m
        rcases accountedFailure accounts looked with ⟨_, _, _, asked⟩ | ⟨_, same⟩
        · cases asked
        · cases same
    · rintro ⟨rfl, rfl, x, rest, rfl, finds⟩
      rcases endOfBind trace with ⟨pending, first, later, t, split, asking, ending⟩ | ⟨e, _, asking⟩
      · obtain ⟨y, rfl, found⟩ := existsFinds asking
        cases (List.cons.inj split).1
        cases found.mpr finds
        exact (endOfFail ending).2.2
      · obtain ⟨y, split, found⟩ := existsFinds asking
        cases (List.cons.inj split).1
        cases found.mpr finds

end Update

section Backup
variable {table backup : String}

theorem lookedOnly {β : Type} {p : Session α} {f : α → Session β} {e : Failure} (looks : p.Sends Request.Looks)
    (asks : ∀ a, FailsAsked world (f a)) (unasked : e.unasked = true)
    (trace : Trace world (p >>= f) s log (ended (.error e)) u) : ∀ x ∈ log, x.request.Looks := by
  rcases endOfBind trace with ⟨a, first, rest, t, rfl, looked, later⟩ | ⟨e, _, looked⟩
  · rw [(askedFailure (asks a) later).2] at unasked
    contradiction
  · exact traceSends looks looked

theorem existingBackupLooks (d : Dialect) (table : String) :
    (existingBackup d table).Sends Request.Looks := by
  refine sendsBind (sendsObjectExists (fun _ _ => ⟨_, _, _, rfl⟩) d _) fun present => ?_
  cases present <;> trivial

theorem restoreLooks {d : Dialect}
    (trace : Trace world (restoreBackup d table) s log (ended (.error (.noBackup backup))) u) :
    ∀ x ∈ log, x.request.Looks := by
  cases d with
  | sqlServer =>
    rw [(endOfFail trace).1]
    exact List.forall_mem_nil _
  | sqlite =>
    refine lookedOnly (existingBackupLooks .sqlite table) (fun name => ?_) rfl trace
    exact accountsBind (accountsExists (fun _ _ => trivial) table) fun _ =>
      accountsBind (accountsChanges anyActs _) fun _ => accountsChange anyActs _

theorem discardLooks {d : Dialect}
    (trace : Trace world (discardBackup d table) s log (ended (.error (.noBackup backup))) u) :
    ∀ x ∈ log, x.request.Looks := by
  cases d with
  | sqlServer =>
    rw [(endOfFail trace).1]
    exact List.forall_mem_nil _
  | sqlite =>
    exact lookedOnly (existingBackupLooks .sqlite table) (fun _ => accountsChange anyActs _)
      rfl trace

end Backup

theorem refusalsOnlyLook (world : World σ) (d : Dialect) (s u : σ) (log : List (Exchange σ)) :
    (∀ m result, Trace world (update d m) s log (ended result) u →
      (∀ e, result = .error e → (Refusal log e ↔ ∀ x ∈ log, x.request.Looks)) ∧
      ∀ table backup, result = .error (.pendingBackup table backup) ↔
        table = m.table ∧ backup = backupName m.table ∧
          ∃ x rest, log = x :: rest ∧ x.Finds (backupName m.table)) ∧
    (∀ table backup, Trace world (restoreBackup d table) s log (ended (.error (.noBackup backup))) u →
      ∀ x ∈ log, x.request.Looks) ∧
    ∀ table backup, Trace world (discardBackup d table) s log (ended (.error (.noBackup backup))) u →
      ∀ x ∈ log, x.request.Looks := by
  refine ⟨fun m result trace => ⟨?_, pendingFound trace⟩, fun _ _ => restoreLooks, fun _ _ => discardLooks⟩
  rintro e rfl
  exact refusalLooks trace

end Session

def ledgerModel : Model :=
  { Model.empty "ledger" .table with
    columns := [{ Column.declared "total" .int with field := some "Total" }] }

def ledgerBackup : List (Request × Reply × Unit) :=
  [(CatalogQuery.request .sqlite (.presence "ledger_original"), .answered [[.text "ledger_original"]] 0, ())]

def ledgerLooks : List (Request × Reply × Unit) :=
  [(CatalogQuery.request .sqlite (.presence "ledger_original"), .answered [] 0, ()),
    (CatalogQuery.request .sqlite (.presence "ledger"), .answered [[.text "ledger"]] 0, ()),
    (CatalogQuery.request .sqlite (.entry "ledger"), .answered [[.text "table", .text "ledger",
      .text "CREATE TABLE ledger ([total] INTEGER"]] 0, ())]

def ledgerUnread : Failure := .schema (.unreadable "CREATE TABLE ledger ([total] INTEGER")

theorem ledgerRefusalsOnlyLook : ∃ first second third,
    (Session.Trace (fun _ _ _ _ => True) (Session.update .sqlite ledgerModel) () first
        (.fail (.pendingBackup "ledger" "ledger_original")) () ∧ ∀ x ∈ first, x.request.Looks) ∧
    (Session.Trace (fun _ _ _ _ => True) (Session.update .sqlite ledgerModel) () second
        (.fail ledgerUnread) () ∧ ∀ x ∈ second, x.request.Looks) ∧
    (Session.Trace (fun _ _ _ _ => True) (Session.restoreBackup .sqlite "ledger") () third
        (.fail (.noBackup "ledger_original")) () ∧ ∀ x ∈ third, x.request.Looks) := by
  have pending := Session.followedTrace (p := Session.update .sqlite ledgerModel) (by rfl)
    (Session.anyAnswer () ledgerBackup)
  have unread := Session.followedTrace (p := Session.update .sqlite ledgerModel) (by rfl)
    (Session.anyAnswer () ledgerLooks)
  have missing := Session.followedTrace (p := Session.restoreBackup .sqlite "ledger") (by rfl)
    (Session.anyAnswer () (ledgerLooks.take 1))
  have told : (Session.update .sqlite ledgerModel).followed ledgerBackup =
      Session.ended (.error (.pendingBackup "ledger" "ledger_original")) := by rfl
  have untold : (Session.update .sqlite ledgerModel).followed ledgerLooks =
      Session.ended (.error ledgerUnread) := by rfl
  have nothing : (Session.restoreBackup .sqlite "ledger").followed (ledgerLooks.take 1) =
      Session.ended (.error (.noBackup "ledger_original")) := by rfl
  rw [told] at pending
  rw [untold] at unread
  rw [nothing] at missing
  have looks := Session.refusalsOnlyLook (fun _ _ _ _ => True) .sqlite () ()
  refine ⟨_, _, _, ⟨pending, ?_⟩, ⟨unread, ?_⟩, missing, (looks _).2.1 _ _ missing⟩
  · exact (((looks _).1 _ _ pending).1 _ rfl).mp (.inl rfl)
  · exact (((looks _).1 _ _ unread).1 _ rfl).mp (.inl rfl)

end LiveSchema
