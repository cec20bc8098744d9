import LiveSchema.Proofs.Examine
/-! Which failure an update tells. Requests fail by being refused, and questions to the catalog also by rows
without the expected cells. A session that is followed with a note of what is to blame tells the first of
these failures; only a rollback that is refused after it takes its place. -/
namespace LiveSchema

def CatalogQuery.legible : CatalogQuery → List Row → Bool
  | .presence _, rows => ((rows.take 1).mapM (Row.text? · 0)).isSome
  | .entry _, rows => ((rows.take 1).mapM CatalogEntry.ofRow?).isSome
  | .entries, rows => (rows.mapM CatalogEntry.ofRow?).isSome
  | .indices _, rows => (rows.mapM (Row.text? · 0)).isSome

def Failure.unasked : Failure → Bool
  | .execution .. | .undecodable _ | .transaction .. => false
  | _ => true

namespace Request

def refusal (report : String) : Request → Failure
  | .statement _ sql _ => .execution sql report
  | .transaction step => .transaction step report

def illegible (rows : List Row) : Request → Option Failure
  | .statement (.catalog q) sql _ => if q.legible rows then none else some (.undecodable sql)
  | _ => none

end Request

namespace Exchange
variable {σ : Type}

def failure? (x : Exchange σ) : Option Failure :=
  match x.reply with
  | .failed report => some (x.request.refusal report)
  | .answered rows _ => x.request.illegible rows

/-- What is to blame after the exchange: the first failure, unless a rollback fails later. -/
def blame (cause : Option Failure) (x : Exchange σ) : Option Failure :=
  match cause with
  | none => x.failure?
  | some e => some (if x.request = .transaction .rollback then x.failure?.getD e else e)

end Exchange

section Blame
variable {σ : Type} {x : Exchange σ} {log : List (Exchange σ)} {e : Failure}

theorem rollbackFailure {report : String} (told : x.failure? = some (.transaction .rollback report)) :
    x.request = .transaction .rollback := by
  obtain ⟨_, request, reply, _⟩ := x
  cases reply with
  | failed report =>
    cases request with
    | statement purpose sql arguments => cases told
    | transaction step =>
      cases told
      rfl
  | answered rows affected =>
    cases request with
    | transaction step => cases told
    | statement purpose sql arguments =>
      cases purpose with
      | catalog q =>
        simp only [Exchange.failure?, Request.illegible] at told
        split at told <;> cases told
      | _ => cases told

theorem failureAsked (told : x.failure? = some e) : e.unasked = false := by
  obtain ⟨_, request, reply, _⟩ := x
  cases reply with
  | failed report => cases request <;> cases told <;> rfl
  | answered rows affected =>
    cases request with
    | transaction step => cases told
    | statement purpose sql arguments =>
      cases purpose with
      | catalog q =>
        simp only [Exchange.failure?, Request.illegible] at told
        split at told <;> cases told
        rfl
      | _ => cases told

theorem blameNone : log.foldl Exchange.blame none = none ↔ ∀ x ∈ log, x.failure? = none := by
  have stays (e : Failure) (rest : List (Exchange σ)) : rest.foldl Exchange.blame (some e) ≠ none := by
    induction rest generalizing e with
    | nil => nofun
    | cons x rest ih => exact ih _
  induction log with
  | nil => simp
  | cons x rest ih =>
    rw [List.foldl_cons, List.forall_mem_cons]
    cases told : x.failure? with
    | none => simpa [Exchange.blame, told] using ih
    | some e => simpa [Exchange.blame, told] using stays e rest

def RollbackTold (log : List (Exchange σ)) (e : Failure) : Prop :=
  ∃ x ∈ log, ∃ report, x.request = .transaction .rollback ∧ x.reply = .failed report ∧
    e = .transaction .rollback report

theorem blameLater (e : Failure) (log : List (Exchange σ)) : ∃ e',
    log.foldl Exchange.blame (some e) = some e' ∧
      (e' = e ∧ (∀ x ∈ log, x.request = .transaction .rollback → x.reply.succeeded = true) ∨
        RollbackTold log e') := by
  induction log generalizing e with
  | nil => exact ⟨e, rfl, .inl ⟨rfl, List.forall_mem_nil _⟩⟩
  | cons x rest ih =>
    have later {e' : Failure} : RollbackTold rest e' → RollbackTold (x :: rest) e' :=
      fun ⟨y, member, told⟩ => ⟨y, List.mem_cons_of_mem x member, told⟩
    -- Whatever is to blame after the first exchange, the rest is as the induction says.
    have kept {c : Failure} (same : Exchange.blame (some e) x = some c)
        (here : c = e ∧ (x.request = .transaction .rollback → x.reply.succeeded = true) ∨
          RollbackTold (x :: rest) c) :
        ∃ e', (x :: rest).foldl Exchange.blame (some e) = some e' ∧
          (e' = e ∧ (∀ y ∈ x :: rest, y.request = .transaction .rollback → y.reply.succeeded = true) ∨
            RollbackTold (x :: rest) e') := by
      rw [List.foldl_cons, same]
      obtain ⟨e', blamed, ⟨rfl, others⟩ | replaced⟩ := ih c
      · refine ⟨e', blamed, here.imp_left ?_⟩
        exact fun ⟨unchanged, fine⟩ => ⟨unchanged, List.forall_mem_cons.mpr ⟨fine, others⟩⟩
      · exact ⟨e', blamed, .inr (later replaced)⟩
    obtain ⟨s, request, reply, t⟩ := x
    by_cases asks : request = .transaction .rollback
    · cases asks
      cases reply with
      | answered rows affected => exact kept rfl (.inl ⟨rfl, fun _ => rfl⟩)
      | failed report => exact kept rfl (.inr ⟨_, List.mem_cons_self, report, rfl, rfl, rfl⟩)
    · exact kept (congrArg some (if_neg asks)) (.inl ⟨rfl, fun rolls => absurd rolls asks⟩)

end Blame

namespace Session
variable {α β σ : Type}

def blaming (world : World σ) (opens : Request → Prop) : Observer σ (Option Failure) where
  world := world
  note := Exchange.blame
  allows cause x := cause = none → opens x.request

def Accounted (own : Failure → Prop) : Except Failure α → Option Failure → Prop
  | .ok _, cause => cause = none
  | .error e, cause => cause = some e ∨ cause = none ∧ own e

theorem accountedError {own : Failure → Prop} {r : Except Failure α} {cause : Option Failure} {e : Failure}
    (blamed : cause = some e) (accounted : Accounted own r cause) : r = .error e := by
  subst blamed
  cases r with
  | ok a => cases accounted
  | error e' =>
    rcases accounted with same | ⟨none, _⟩
    · rw [Option.some.inj same]
    · cases none

def Accounts (world : World σ) (opens : Request → Prop) (own : Failure → Prop) (p : Session α) : Prop :=
  ∀ s, p.Obeys (blaming world opens) (fun r _ cause => Accounted own r cause) s none

section Rules
variable {world : World σ} {opens : Request → Prop} {own : Failure → Prop}

theorem accountsDone (a : α) : Accounts world opens own (.done a : Session α) := fun _ => rfl

theorem accountsFail {e : Failure} (admitted : own e) : Accounts world opens own (.fail e : Session α) :=
  fun _ => .inr ⟨rfl, admitted⟩

theorem accountsBind {p : Session α} {f : α → Session β} (first : Accounts world opens own p)
    (next : ∀ a, Accounts world opens own (f a)) : Accounts world opens own (p >>= f) := by
  intro s
  refine obeysBind (obeysMono (first s) ?_)
  intro r t cause accounted
  cases r with
  | ok a =>
    cases accounted
    exact next a t
  | error e => exact accounted

theorem accountsOfExcept {ε : Type} {cause : ε → Failure} {x : Except ε α}
    (admitted : ∀ e, x = .error e → own (cause e)) : Accounts world opens own (ofExcept cause x) := by
  cases x with
  | ok a => exact accountsDone a
  | error e => exact accountsFail (admitted e rfl)

theorem accountsSend {purpose : Purpose} {sql : String} {arguments : List Value}
    (opened : opens (.statement purpose sql arguments)) (bare : ∀ q, purpose ≠ .catalog q) :
    Accounts world opens own (send purpose sql arguments) := by
  intro s
  refine obeysSend fun reply t _ => ⟨fun _ => opened, ?_⟩
  cases reply with
  | failed report => exact .inl rfl
  | answered rows affected =>
    cases purpose with
    | catalog q => exact absurd rfl (bare q)
    | _ => rfl

theorem accountsStep {step : TransactionStep} (opened : opens (.transaction step)) :
    Accounts world opens own (transactionStep step) := by
  intro s reply t _
  refine ⟨fun _ => opened, ?_⟩
  cases reply with
  | failed report => exact .inl rfl
  | answered rows affected => rfl

theorem accountsAsk {q : CatalogQuery} {choose : List Row → List Row} {decode : Row → Option α}
    (opened : ∀ sql, opens (.statement (.catalog q) sql q.arguments))
    (reads : ∀ rows, q.legible rows = ((choose rows).mapM decode).isSome) :
    Accounts world opens own (askCatalog .sqlite q choose decode) := by
  obtain ⟨sql, written⟩ := queryWritten q
  rw [askCatalog, written, sqlReady]
  intro s
  refine obeysBind (obeysSend fun reply t _ => ⟨fun _ => opened sql, ?_⟩)
  cases reply with
  | failed report => exact .inl rfl
  | answered rows affected =>
    have told : (blaming world opens).note none
        ⟨s, .statement (.catalog q) sql q.arguments, .answered rows affected, t⟩ =
          if q.legible rows then none else some (.undecodable sql) := rfl
    rw [told, reads]
    cases found : (choose rows).mapM decode <;> simp only [Reply.result, found]
    · exact .inl rfl
    · exact rfl

section Catalog
variable (looks : ∀ r : Request, r.Looks → opens r)
include looks

theorem accountsExists (name : String) : Accounts world opens own (objectExists .sqlite name) :=
  accountsBind (accountsAsk (fun _ => looks _ ⟨_, _, _, rfl⟩) fun _ => rfl) fun _ => accountsDone _

theorem accountsReadSchema (stored : ∀ e, own (.schema e)) (name : String) :
    Accounts world opens own (readSchema .sqlite name) := by
  have indices (table : String) : Accounts world opens own (readIndices .sqlite table) :=
    accountsBind (accountsAsk (fun _ => looks _ ⟨_, _, _, rfl⟩) fun _ => rfl) fun _ =>
      accountsOfExcept fun e _ => stored e
  refine accountsBind (accountsAsk (fun _ => looks _ ⟨_, _, _, rfl⟩) fun _ => rfl) fun entries => ?_
  cases entries with
  | nil => exact accountsFail (stored _)
  | cons entry _ =>
    cases known : entry.sql with
    | none =>
      simp only [known]
      exact accountsFail (stored _)
    | some sql =>
      simp only [known]
      unfold schemaOf
      split
      · exact accountsBind (accountsOfExcept fun e _ => stored e) fun _ =>
          accountsBind (indices _) fun _ => accountsDone _
      · split
        · exact accountsDone _
        · exact accountsFail (stored _)

theorem accountsExamine (stored : ∀ e, own (.schema e)) (m : Model) :
    Accounts world opens own (examine .sqlite m) := by
  refine accountsBind (accountsExists looks _) fun pending => ?_
  cases pending with
  | true => exact accountsDone _
  | false =>
    refine accountsBind (accountsExists looks _) fun present => ?_
    cases present with
    | true => exact accountsBind (accountsReadSchema looks stored _) fun _ => accountsDone _
    | false => exact accountsDone _

end Catalog

theorem undoRollsNothing (d : Dialect) (table : String) (live : Table) :
    (undoRebuild d table live).Sends (· ≠ .transaction .rollback) :=
  sendsBind (sendsRestore (fun _ _ => nofun) (fun _ => nofun) fun _ => nofun) fun _ =>
    sendsChanges fun _ _ _ _ => nofun

section Acting
variable (acts : ∀ r : Request, ¬ r.Looks → r ≠ .transaction .rollback → opens r)
include acts

theorem accountsSent {purpose : Purpose} (sql : String) (bare : ∀ q, purpose ≠ .catalog q) :
    Accounts world opens own (send purpose sql []) := by
  refine accountsSend (acts _ ?_ (by simp)) bare
  rintro ⟨q, _, _, same⟩
  cases same
  exact bare q rfl

theorem accountsChange (c : Change) : Accounts world opens own (change .sqlite c) := by
  obtain ⟨sql, written⟩ := changeWritten c
  rw [change, written, sqlReady]
  exact accountsBind (accountsSent acts sql (by simp)) fun _ => accountsDone _

theorem accountsChanges (cs : List Change) : Accounts world opens own (changes .sqlite cs) := by
  induction cs with
  | nil => exact accountsDone ()
  | cons c rest ih => exact accountsBind (accountsChange acts c) fun _ => ih

theorem accountsTransaction {body : Session α} (inner : Accounts world opens (fun _ => False) body) :
    Accounts world opens own (inTransaction body) := by
  have step (step : TransactionStep) (other : step ≠ .rollback) : opens (.transaction step) :=
    acts _ (by simp [Request.Looks]) (by simp [other])
  refine accountsBind (accountsStep (step .start nofun)) fun _ t => ?_
  refine obeysBind (obeysOutcome (obeysMono (inner t) ?_))
  intro r v cause accounted
  cases r with
  | ok a =>
    cases accounted
    exact accountsBind (accountsStep (step .commit nofun)) (fun _ => accountsDone a) v
  | error e =>
    rcases accounted with rfl | ⟨_, impossible⟩
    · intro reply w _
      refine ⟨nofun, ?_⟩
      cases reply with
      | failed report => exact .inl rfl
      | answered rows affected => exact .inl rfl
    · exact impossible.elim

theorem accountsCreate (m : Model) : Accounts world opens own (create .sqlite m) := by
  unfold create
  split
  · rename_i query _
    exact accountsBind (accountsSent acts query (by simp)) fun _ => accountsDone _
  · exact accountsBind (accountsChange acts _) fun _ => accountsChanges acts _

theorem accountsCopyRows (plan : CopyPlan) : Accounts world opens own (copyRows .sqlite plan) := by
  unfold copyRows
  split
  · exact accountsDone 0
  · obtain ⟨sql, written⟩ := copyWritten plan
    rw [written, sqlReady]
    exact accountsBind (accountsTransaction acts (accountsSent acts sql (by simp))) fun _ => accountsDone _

theorem accountsRebuild (m : Model) (live : Table) (diff : TableDiff) :
    Accounts world opens own (rebuild .sqlite m live diff) :=
  accountsBind (accountsCreate acts m) fun _ => accountsBind (accountsCopyRows acts _) fun _ => accountsDone _

theorem accountsRecreate (m : Model) (live : Table) (diff : TableDiff) :
    Accounts world opens own (recreate .sqlite m live diff) := by
  refine accountsBind (accountsChange acts _) fun _ t => ?_
  have rebuilding : Accounts world opens (fun _ => False) (rebuild .sqlite m live diff) :=
    accountsRebuild acts m live diff
  refine obeysBind (obeysOutcome (obeysMono (rebuilding t) ?_))
  intro r v cause accounted
  cases r with
  | ok report =>
    cases accounted
    exact accountsBind (accountsChange acts _) (fun _ => accountsDone report) v
  | error e =>
    rcases accounted with rfl | ⟨_, impossible⟩
    · have undoing : (undoRebuild .sqlite m.table live).Obeys (blaming world opens)
          (fun _ _ cause => cause = some e) v (some e) := by
        refine obeysOfSends (undoRollsNothing .sqlite m.table live) ?_ rfl
        rintro s _ request reply w rfl other _
        exact ⟨nofun, congrArg some (if_neg other)⟩
      refine obeysBind (obeysOutcome (obeysMono undoing ?_))
      rintro r w _ rfl
      exact .inl rfl
    · exact impossible.elim

theorem accountsAlter (m : Model) (live : Table) (diff : TableDiff) :
    Accounts world opens own (alterInPlace .sqlite m live diff) :=
  accountsBind (accountsTransaction acts (accountsChanges acts _)) fun _ => accountsDone _

theorem actAccounts (m : Model) (f : Finding) : f = .backup ∨
    (∃ name, act .sqlite m f = .fail (.mismatch name)) ∨ Accounts world opens own (act .sqlite m f) := by
  match f with
  | .backup => exact .inl rfl
  | .nothing => exact .inr (.inr (accountsBind (accountsCreate acts m) fun _ => accountsDone _))
  | .object (.view v) =>
    exact .inr (.inr (accountsBind (accountsChange acts _) fun _ =>
      accountsBind (accountsCreate acts m) fun _ => accountsDone _))
  | .object (.table live) =>
    have chosen : act .sqlite m (.object (.table live)) =
        if m.isView then .fail (.mismatch m.table) else updateTable .sqlite m live := rfl
    rw [chosen]
    split
    · exact .inr (.inl ⟨_, rfl⟩)
    · obtain ⟨diff, computed⟩ := differenceComputed (m := m) live
      rw [updateTable, computed, sqlReady]
      cases diff.strategy with
      | additive => exact .inr (.inr (accountsBind (accountsAlter acts m live diff) fun _ => accountsDone _))
      | recreate => exact .inr (.inr (accountsBind (accountsRecreate acts m live diff) fun _ => accountsDone _))

end Acting

end Rules

section Update
variable {world : World σ}

theorem updateAccounts (m : Model) :
    Accounts world (· ≠ .transaction .rollback) (·.unasked = true) (update .sqlite m) := by
  have looks (r : Request) (looking : r.Looks) : r ≠ .transaction .rollback := by
    rintro rfl
    obtain ⟨_, _, _, same⟩ := looking
    cases same
  rw [updateParts]
  refine accountsBind (accountsExamine looks (fun _ => rfl) m) fun f => ?_
  rcases actAccounts (fun _ _ other => other) m f with rfl | ⟨name, refuses⟩ | accounts
  · exact accountsFail rfl
  · rw [refuses]
    exact accountsFail rfl
  · exact accounts

theorem unimplementedUpdate (m : Model) : ∃ e, update .sqlServer m = .fail (.render e) := ⟨_, rfl⟩

theorem firstFailureTold {d : Dialect} {m : Model} {s u : σ} {earlier later : List (Exchange σ)}
    {x : Exchange σ} {c : Failure} {result : Except Failure SchemaUpdate}
    (trace : Trace world (update d m) s (earlier ++ x :: later) (ended result) u)
    (quiet : ∀ y ∈ earlier, y.failure? = none) (failed : x.failure? = some c) :
    ∃ e, result = .error e ∧ (e = c ∨ RollbackTold later e) ∧
      (e = c ↔ ∀ y ∈ later, y.request = .transaction .rollback → y.reply.succeeded = true) := by
  cases d with
  | sqlServer =>
    obtain ⟨e, refuses⟩ := unimplementedUpdate m
    rw [refuses] at trace
    have nothing := (endOfFail trace).1
    simp at nothing
  | sqlite =>
    have accounts : (update .sqlite m).Obeys (blaming world (· ≠ .transaction .rollback))
        (fun r _ cause => Accounted (·.unasked = true) r cause) s none := updateAccounts m s
    have untold : earlier.foldl Exchange.blame none = none := blameNone.mpr quiet
    have along := (alongAppend _ _ _).mp (obeyedTrace accounts trace)
    have other : x.request ≠ .transaction .rollback := along.2.1 untold
    obtain ⟨e, blamed, told⟩ := blameLater c later
    have cause : (earlier ++ x :: later).foldl Exchange.blame none = some e := by
      rw [List.foldl_append, untold, List.foldl_cons, ← blamed]
      exact congrArg (later.foldl Exchange.blame) failed
    refine ⟨e, accountedError cause (obeyedResult accounts trace), told.imp_left And.left, ?_⟩
    rcases told with ⟨rfl, fine⟩ | ⟨y, member, report, asks, replied, rfl⟩
    · exact ⟨fun _ => fine, fun _ => rfl⟩
    · refine ⟨fun same => absurd (rollbackFailure (same ▸ failed)) other, fun fine => ?_⟩
      have answered := fine y member asks
      rw [replied] at answered
      contradiction

end Update

end Session

def errandModel : Model :=
  { Model.empty "errand" .table with
    columns := [{ Column.declared "goal" .text with field := some "Goal" }] }

def errandBegun : List (Request × Reply × Unit) :=
  [(CatalogQuery.request .sqlite (.presence "errand_original"), .answered [] 0, ()),
    (CatalogQuery.request .sqlite (.presence "errand"), .answered [[.text "errand"]] 0, ()),
    (CatalogQuery.request .sqlite (.entry "errand"), .answered [[.text "table", .text "errand",
      .text "CREATE TABLE errand ([goal] TEXT,[due] INTEGER)"]] 0, ()),
    (CatalogQuery.request .sqlite (.indices "errand"), .answered [] 0, ()),
    (Change.request .sqlite (.renameTable "errand" "errand_original"), .answered [] 0, ()),
    (Change.request .sqlite (.ofModel errandModel), .answered [] 0, ()),
    (.transaction .start, .answered [] 0, ())]

def errandRefusal : Request × Reply × Unit :=
  (CopyPlan.request .sqlite ⟨"errand_original", "errand", [("goal", .column)]⟩, .failed "disk full", ())

def errandUndoing (rolledBack : Reply) : List (Request × Reply × Unit) :=
  [(.transaction .rollback, rolledBack, ()),
    (CatalogQuery.request .sqlite (.presence "errand_original"), .answered [[.text "errand_original"]] 0, ()),
    (CatalogQuery.request .sqlite (.presence "errand"), .answered [[.text "errand"]] 0, ()),
    (Change.request .sqlite (.dropTable "errand"), .failed "table is locked", ())]

def errandCopyFailure : Failure :=
  .execution "INSERT INTO errand ([goal]) SELECT [goal] FROM errand_original" "disk full"

theorem errandTrace (rolledBack : Reply) : Session.Trace (fun _ _ _ _ => True)
    (Session.update .sqlite errandModel) ()
    (Exchange.chain () errandBegun ++ ⟨(), errandRefusal.1, errandRefusal.2.1, ()⟩ ::
      Exchange.chain () (errandUndoing rolledBack))
    ((Session.update .sqlite errandModel).followed (errandBegun ++ errandRefusal :: errandUndoing rolledBack)) () := by
  have requests : (Session.update .sqlite errandModel).accepts
      (errandBegun ++ errandRefusal :: errandUndoing rolledBack) = true := by
    cases rolledBack <;> rfl
  exact Session.followedTrace requests (Session.anyAnswer () _)

theorem errandFailureTold : ∃ log e,
    Session.Trace (fun _ _ _ _ => True) (Session.update .sqlite errandModel) () log (.fail e) () ∧
      e = errandCopyFailure ∧
      ∃ x ∈ log, x.failure? = some (.execution "DROP TABLE errand" "table is locked") := by
  have trace := errandTrace (.answered [] 0)
  have ends : (Session.update .sqlite errandModel).followed
      (errandBegun ++ errandRefusal :: errandUndoing (.answered [] 0)) =
        Session.ended (.error errandCopyFailure) := by rfl
  rw [ends] at trace
  obtain ⟨e, same, _, told⟩ := Session.firstFailureTold (c := errandCopyFailure) trace (by decide) rfl
  cases same
  exact ⟨_, _, trace, told.mpr (by decide), by decide⟩

theorem firstFailureMayBeHidden : ¬ ∀ (world : World Unit) (d : Dialect) (m : Model)
    (earlier later : List (Exchange Unit)) (x : Exchange Unit) (c e : Failure),
    Session.Trace world (Session.update d m) () (earlier ++ x :: later) (.fail e) () →
      (∀ y ∈ earlier, y.failure? = none) → x.failure? = some c → e = c := by
  intro alwaysTold
  have trace := errandTrace (.failed "connection lost")
  have ends : (Session.update .sqlite errandModel).followed
      (errandBegun ++ errandRefusal :: errandUndoing (.failed "connection lost")) =
        .fail (.transaction .rollback "connection lost") := by rfl
  rw [ends] at trace
  have same := alwaysTold _ _ _ _ _ _ errandCopyFailure _ trace (by decide) rfl
  cases same

end LiveSchema
