import LiveSchema.Proofs.BackupGuard
import LiveSchema.Proofs.TrueCatalog
/-! What lists of changes do to a database, and what becomes of an open transaction. Making the indices of
a table anew leaves the indices whose names are not among them, followed by the new ones in order. What is
stored under another name can only lose indices meanwhile. -/
namespace LiveSchema

def Change.Effects : List Change → Store → Store → Prop
  | [], s, t => t = s
  | c :: rest, s, t => ∃ mid, c.Effect .sqlite s mid ∧ Change.Effects rest mid t

theorem Change.effectsAppend {first rest : List Change} {s t : Store} :
    Change.Effects (first ++ rest) s t ↔ ∃ mid, Change.Effects first s mid ∧ Change.Effects rest mid t := by
  induction first generalizing s with
  | nil => exact ⟨fun effects => ⟨s, rfl, effects⟩, fun ⟨_, same, effects⟩ => same ▸ effects⟩
  | cons c first ih =>
    simp only [List.cons_append, Effects, ih]
    exact ⟨fun ⟨a, here, b, inner, later⟩ => ⟨b, ⟨a, here, inner⟩, later⟩,
      fun ⟨b, ⟨a, here, inner⟩, later⟩ => ⟨a, here, b, inner, later⟩⟩

namespace Session
variable {α : Type} {s u : Database} {log : List (Exchange Database)}

theorem refusedOne {x : Exchange Database} (failed : x.reply.succeeded = false)
    (other : x.request ≠ .transaction .rollback) : Refused [x] :=
  ⟨x, List.mem_singleton_self x, by simp [Exchange.refused, failed, other]⟩

theorem changeAnswer {c : Change} {result : Except Failure Unit}
    (trace : Trace Tells (change .sqlite c) s log (ended result) u) : ∃ sql reply,
    log = [⟨s, .statement (.change c) sql [], reply, u⟩] ∧
      Tells s (.statement (.change c) sql []) reply u ∧ (reply.succeeded = true ↔ result = .ok ()) := by
  obtain ⟨sql, written⟩ := changeWritten c
  rw [change, written, sqlReady] at trace
  rcases endOfBind trace with ⟨answer, first, rest, t, rfl, sent, later⟩ | ⟨e, rfl, sent⟩
  · obtain ⟨rfl, rfl, rfl⟩ := endOfDone later
    obtain ⟨reply, rfl, tells, replied⟩ := endOfSend sent
    cases reply with
    | failed report => cases replied
    | answered rows affected => exact ⟨sql, _, rfl, tells, by simp [Reply.succeeded]⟩
  · obtain ⟨reply, rfl, tells, replied⟩ := endOfSend sent
    cases reply with
    | failed report => exact ⟨sql, _, rfl, tells, by simp [Reply.succeeded]⟩
    | answered rows affected => cases replied

theorem changeEnd {c : Change} {result : Except Failure Unit}
    (trace : Trace Tells (change .sqlite c) s log (ended result) u) :
    u.saved = s.saved ∧ ((Refused log ∧ (∃ e, result = .error e) ∧ u = s) ∨
      (result = .ok () ∧ c.Effect .sqlite s.store u.store)) := by
  obtain ⟨sql, reply, rfl, tells, succeeds⟩ := changeAnswer trace
  rcases tellsChange tells with ⟨refused, rfl⟩ | ⟨answered, effect, saved⟩
  · refine ⟨rfl, .inl ⟨refusedOne refused nofun, ?_, rfl⟩⟩
    cases result with
    | error e => exact ⟨e, rfl⟩
    | ok _ => exact absurd (succeeds.mpr rfl) (by simp [refused])
  · exact ⟨saved, .inr ⟨succeeds.mp answered, effect⟩⟩

theorem changesEnd {cs : List Change} {result : Except Failure Unit}
    (trace : Trace Tells (changes .sqlite cs) s log (ended result) u) :
    u.saved = s.saved ∧ ((Refused log ∧ ∃ e, result = .error e) ∨
      (result = .ok () ∧ Change.Effects cs s.store u.store)) := by
  induction cs generalizing s log with
  | nil =>
    obtain ⟨rfl, rfl, rfl⟩ := endOfDone trace
    exact ⟨rfl, .inr ⟨rfl, rfl⟩⟩
  | cons c rest ih =>
    rcases endOfBind trace with ⟨_, first, last, t, rfl, here, later⟩ | ⟨e, rfl, here⟩
    · obtain ⟨saved, ⟨_, ⟨e, failed⟩, _⟩ | ⟨_, effect⟩⟩ := changeEnd here
      · cases failed
      · obtain ⟨saved', others⟩ := ih later
        refine ⟨saved'.trans saved, others.imp ?_ ?_⟩
        · exact fun ⟨refused, failed⟩ => ⟨refusedAppend.mpr (.inr refused), failed⟩
        · exact fun ⟨made, effects⟩ => ⟨made, _, effect, effects⟩
    · obtain ⟨saved, ⟨refused, _⟩ | ⟨made, _⟩⟩ := changeEnd here
      · exact ⟨saved, .inl ⟨refused, e, rfl⟩⟩
      · cases made

theorem changesRefused {cs : List Change} {e : Failure}
    (trace : Trace Tells (changes .sqlite cs) s log (ended (.error e)) u) : Refused log := by
  obtain ⟨_, ⟨refused, _⟩ | ⟨made, _⟩⟩ := changesEnd trace
  · exact refused
  · cases made

theorem changesMade {cs : List Change} {a : Unit}
    (trace : Trace Tells (changes .sqlite cs) s log (ended (.ok a)) u) :
    u.saved = s.saved ∧ Change.Effects cs s.store u.store := by
  obtain ⟨saved, ⟨_, e, failed⟩ | ⟨_, effects⟩⟩ := changesEnd trace
  · cases failed
  · exact ⟨saved, effects⟩

theorem changesTrace {cs : List Change} {s t : Store} (effects : Change.Effects cs s t)
    (saved : Option Store) :
    ∃ log, Trace Tells (changes .sqlite cs) ⟨s, saved⟩ log (.done ()) ⟨t, saved⟩ ∧
      ∀ c ∈ cs, ∃ x ∈ log, x.did (· = c) = true ∧ c.Effect .sqlite x.before.store x.after.store := by
  induction cs generalizing s with
  | nil => exact ⟨[], effects ▸ .stop _ _, List.forall_mem_nil _⟩
  | cons c rest ih =>
    obtain ⟨mid, effect, later⟩ := effects
    obtain ⟨log, after, all⟩ := ih later
    obtain ⟨sql, written⟩ := changeWritten c
    have here : Trace Tells (change .sqlite c) ⟨s, saved⟩
        [⟨⟨s, saved⟩, .statement (.change c) sql [], .answered [] 0, ⟨mid, saved⟩⟩] (.done ()) ⟨mid, saved⟩ := by
      rw [change, written, sqlReady]
      exact .ask (tellsMade effect) (.stop _ _)
    refine ⟨_, bindTrace here after, List.forall_mem_cons.mpr ⟨?_, fun c' member => ?_⟩⟩
    · exact ⟨_, List.mem_cons_self, by simp, effect⟩
    · obtain ⟨x, among, did⟩ := all c' member
      exact ⟨x, List.mem_cons_of_mem _ among, did⟩

theorem startEnd {result : Except Failure Unit}
    (trace : Trace Tells (transactionStep .start) s log (ended result) u) :
    (Refused log ∧ (∃ e, result = .error e) ∧ u = s) ∨
      (result = .ok () ∧ u = ⟨s.store, some s.store⟩) := by
  obtain ⟨reply, rfl, tells, ⟨answered, rfl⟩ | ⟨report, rfl, rfl⟩⟩ := endOfStep trace
  · rcases tellsStart tells with ⟨refused, _⟩ | ⟨_, rfl⟩
    · simp [answered] at refused
    · exact .inr ⟨rfl, rfl⟩
  · rcases tellsStart tells with ⟨_, rfl⟩ | ⟨answered, _⟩
    · exact .inl ⟨refusedOne rfl nofun, ⟨_, rfl⟩, rfl⟩
    · cases answered

theorem commitEnd {result : Except Failure Unit}
    (trace : Trace Tells (transactionStep .commit) s log (ended result) u) :
    (Refused log ∧ (∃ e, result = .error e) ∧ u = s.rolledBack) ∨
      (result = .ok () ∧ u = ⟨s.store, none⟩) := by
  obtain ⟨reply, rfl, tells, ⟨answered, rfl⟩ | ⟨report, rfl, rfl⟩⟩ := endOfStep trace
  · rcases tellsCommit tells with ⟨refused, _⟩ | ⟨_, rfl⟩
    · simp [answered] at refused
    · exact .inr ⟨rfl, rfl⟩
  · rcases tellsCommit tells with ⟨_, rfl⟩ | ⟨answered, _⟩
    · exact .inl ⟨refusedOne rfl nofun, ⟨_, rfl⟩, rfl⟩
    · cases answered

theorem rollbackEnd {result : Except Failure Unit}
    (trace : Trace Tells (transactionStep .rollback) s log (ended result) u) : u = s.rolledBack := by
  obtain ⟨reply, rfl, tells, _⟩ := endOfStep trace
  exact tellsRollback tells

def closing : Except Failure α → Session α
  | .ok a => do
    transactionStep .commit
    return a
  | .error e => do
    transactionStep .rollback
    .fail e

theorem closingEnd {r result : Except Failure α} (trace : Trace Tells (closing r) s log (ended result) u) :
    (∃ a, r = .ok a ∧ result = .ok a ∧ u = ⟨s.store, none⟩) ∨
      ((∃ e, result = .error e) ∧ u = s.rolledBack ∧ ((∃ e, r = .error e) ∨ Refused log)) := by
  cases r with
  | ok a =>
    rcases endOfBind trace with ⟨_, first, rest, t, rfl, committing, last⟩ | ⟨e, rfl, committing⟩
    · obtain ⟨rfl, rfl, rfl⟩ := endOfDone last
      rcases commitEnd committing with ⟨_, ⟨e, failed⟩, _⟩ | ⟨_, rfl⟩
      · cases failed
      · exact .inl ⟨a, rfl, rfl, rfl⟩
    · rcases commitEnd committing with ⟨refused, _, same⟩ | ⟨made, _⟩
      · exact .inr ⟨⟨e, rfl⟩, same, .inr refused⟩
      · cases made
  | error e =>
    rcases endOfBind trace with ⟨_, first, rest, t, rfl, undoing, last⟩ | ⟨e', rfl, undoing⟩
    · obtain ⟨rfl, rfl, rfl⟩ := endOfFail last
      exact .inr ⟨⟨e, rfl⟩, rollbackEnd undoing, .inl ⟨e, rfl⟩⟩
    · exact .inr ⟨⟨e', rfl⟩, rollbackEnd undoing, .inl ⟨e, rfl⟩⟩

theorem transactionEnd {body : Session α} {result : Except Failure α} (unsaved : s.saved = none)
    (inside : ∀ inner r v, Trace Tells body ⟨s.store, some s.store⟩ inner (ended r) v →
      v.saved = some s.store ∧ ∀ e, r = .error e → Refused inner)
    (trace : Trace Tells (inTransaction body) s log (ended result) u) :
    (Refused log ∧ (∃ e, result = .error e) ∧ u = s) ∨
      ∃ a inner v, result = .ok a ∧ u = ⟨v.store, none⟩ ∧
        Trace Tells body ⟨s.store, some s.store⟩ inner (ended (.ok a)) v := by
  rcases endOfBind trace with ⟨_, first, rest, t, rfl, starting, later⟩ | ⟨e, rfl, starting⟩
  · rcases startEnd starting with ⟨_, ⟨e, failed⟩, _⟩ | ⟨_, rfl⟩
    · cases failed
    have later : Trace Tells (body.outcome >>= closing) _ rest (ended result) u := later
    rcases endOfBind later with ⟨r, inner, last, v, rfl, ran, ending⟩ | ⟨e, rfl, ran⟩
    case inr => cases (endOfOutcome ran).choose_spec.1
    obtain ⟨r', same, ran⟩ := endOfOutcome ran
    cases same
    obtain ⟨saved, refuses⟩ := inside _ _ _ ran
    have back : v.rolledBack = s := by
      cases s
      cases unsaved
      rw [Database.rolledBack, saved]
      rfl
    rcases closingEnd ending with ⟨a, rfl, rfl, rfl⟩ | ⟨failed, same, refused⟩
    · exact .inr ⟨a, inner, v, rfl, rfl, ran⟩
    · have refused : Refused inner ∨ Refused last := by
        rcases refused with ⟨e, ended⟩ | refused
        · exact .inl (refuses e ended)
        · exact .inr refused
      exact .inl ⟨refusedAppend.mpr (.inr (refusedAppend.mpr refused)), failed, same.trans back⟩
  · rcases startEnd starting with ⟨refused, _, rfl⟩ | ⟨made, _⟩
    · exact .inl ⟨refused, ⟨e, rfl⟩, rfl⟩
    · cases made

theorem sendCopyEnd {plan : CopyPlan} {sql : String} {result : Except Failure (List Row × Nat)}
    (trace : Trace Tells (send (.copy plan) sql []) s log (ended result) u) :
    u.saved = s.saved ∧ ((Refused log ∧ ∃ e, result = .error e) ∨
      ((∃ a, result = .ok a) ∧ plan.Effect s.store u.store)) := by
  obtain ⟨reply, rfl, tells, rfl⟩ := endOfSend trace
  rcases tellsCopy tells with ⟨refused, rfl⟩ | ⟨answered, effect, saved⟩
  · cases reply with
    | failed report => exact ⟨rfl, .inl ⟨refusedOne refused nofun, _, rfl⟩⟩
    | answered rows affected => cases refused
  · cases reply with
    | failed report => cases answered
    | answered rows affected => exact ⟨saved, .inr ⟨⟨_, rfl⟩, effect⟩⟩

theorem copyTransactionEnd {plan : CopyPlan} {sql : String} {result : Except Failure (List Row × Nat)}
    (unsaved : s.saved = none)
    (trace : Trace Tells (inTransaction (send (.copy plan) sql [])) s log (ended result) u) :
    u.saved = none ∧ ((Refused log ∧ (∃ e, result = .error e) ∧ u = s) ∨
      ((∃ a, result = .ok a) ∧ plan.Effect s.store u.store)) := by
  have inside (inner : List (Exchange Database)) (r : Except Failure (List Row × Nat)) (v : Database)
      (sent : Trace Tells (send (.copy plan) sql []) ⟨s.store, some s.store⟩ inner (ended r) v) :
      v.saved = some s.store ∧ ∀ e, r = .error e → Refused inner := by
    obtain ⟨saved, ⟨refused, _⟩ | ⟨⟨a, made⟩, _⟩⟩ := sendCopyEnd sent
    · exact ⟨saved, fun _ _ => refused⟩
    · exact ⟨saved, fun e failed => by rw [made] at failed; cases failed⟩
  rcases transactionEnd unsaved inside trace with ⟨refused, failed, rfl⟩ | ⟨a, inner, v, rfl, rfl, sent⟩
  · exact ⟨unsaved, .inl ⟨refused, failed, rfl⟩⟩
  · obtain ⟨_, ⟨_, e, failed⟩ | ⟨_, effect⟩⟩ := sendCopyEnd sent
    · cases failed
    · exact ⟨rfl, .inr ⟨⟨a, rfl⟩, effect⟩⟩

theorem copyRowsEnd {plan : CopyPlan} {result : Except Failure Nat} (unsaved : s.saved = none)
    (trace : Trace Tells (copyRows .sqlite plan) s log (ended result) u) :
    u.saved = none ∧ ((Refused log ∧ (∃ e, result = .error e) ∧ u = s) ∨
      ((∃ copied, result = .ok copied) ∧ (u = s ∨ plan.Effect s.store u.store))) := by
  unfold copyRows at trace
  split at trace
  · obtain ⟨rfl, rfl, rfl⟩ := endOfDone trace
    exact ⟨unsaved, .inr ⟨⟨0, rfl⟩, .inl rfl⟩⟩
  · obtain ⟨sql, written⟩ := copyWritten plan
    rw [written, sqlReady] at trace
    obtain ⟨inner, copying, rfl⟩ := endOfMap trace
    obtain ⟨saved, ⟨refused, ⟨e, rfl⟩, same⟩ | ⟨⟨a, rfl⟩, effect⟩⟩ := copyTransactionEnd unsaved copying
    · exact ⟨saved, .inl ⟨refused, ⟨e, rfl⟩, same⟩⟩
    · exact ⟨saved, .inr ⟨⟨_, rfl⟩, .inr effect⟩⟩

end Session

namespace Store

def indexOf (table : String) (g : ColumnGroup) : ColumnGroup :=
  ⟨Dialect.sqlite.indexName table g.name, g.columns⟩

def apartFrom (table : String) (groups : List ColumnGroup) (indices : List ColumnGroup) :
    List ColumnGroup :=
  indices.filter fun i =>
    groups.all fun g => nameKey i.name != nameKey (Dialect.sqlite.indexName table g.name)

section
variable {s t : Store} {table other index : String} {old : StoredTable} {groups : List ColumnGroup}

theorem tablePut (s : Store) (table : String) (t : StoredTable) : (s.put table t).table? table = some t :=
  tableOfFind (findSame rfl _)

theorem findPut (differs : nameKey other ≠ nameKey table) (t : StoredTable) :
    (s.put table t).find other = s.find other := findOther differs _

theorem tableWithoutIndex (found : s.table? table = some old) : (s.withoutIndex index).table? table =
    some { old with indices := old.indices.filter (nameKey ·.name ≠ nameKey index) } := by
  refine tableOfFind ?_
  have here : s (nameKey table) = _ := tableFound found
  simp only [find, withoutIndex, here, Option.map_some, dropIndex]

theorem indexGone (s : Store) (index : String) : ¬(s.withoutIndex index).HasIndex index := by
  rintro ⟨key, t, found, g, member, same⟩
  obtain ⟨object, _, dropped⟩ := Option.map_eq_some_iff.mp found
  cases object with
  | view query => cases dropped
  | table old =>
    cases dropped
    simpa [same] using (List.mem_filter.mp member).2

theorem indexKey (table group : String) : nameKey (Dialect.sqlite.indexName table group) =
    nameKey ("idx_" ++ table ++ "_") ++ nameKey group := by
  simp [nameKey, Dialect.indexName]

theorem indexKeyIff {a b : String} : nameKey (Dialect.sqlite.indexName table a) =
    nameKey (Dialect.sqlite.indexName table b) ↔ nameKey a = nameKey b := by
  rw [indexKey, indexKey, List.append_cancel_left_eq]

theorem memApartFrom {i : ColumnGroup} {indices : List ColumnGroup} :
    i ∈ apartFrom table groups indices ↔
      i ∈ indices ∧ ∀ g ∈ groups, nameKey i.name ≠ nameKey (Dialect.sqlite.indexName table g.name) := by
  simp only [apartFrom, List.mem_filter, List.all_eq_true, bne_iff_ne]

theorem apartFromSublist (indices : List ColumnGroup) :
    (apartFrom table groups indices).Sublist indices := List.filter_sublist

theorem apartFromCons (g : ColumnGroup) (indices : List ColumnGroup) :
    apartFrom table groups (indices.filter
      (nameKey ·.name ≠ nameKey (Dialect.sqlite.indexName table g.name))) =
    apartFrom table (g :: groups) indices := by
  rw [apartFrom, apartFrom, List.filter_filter]
  refine List.filter_congr fun i _ => ?_
  rw [List.all_cons, Bool.and_comm]
  exact congrArg (· && _) (Bool.eq_iff_iff.mpr (by simp only [decide_eq_true_eq, bne_iff_ne]))

theorem apartFromOthers {g : ColumnGroup} (other : nameKey g.name ∉ groups.map (nameKey ·.name)) :
    apartFrom table groups [indexOf table g] = [indexOf table g] := by
  refine List.filter_eq_self.mpr fun i member => ?_
  cases List.mem_singleton.mp member
  simp only [indexOf, List.all_eq_true, bne_iff_ne]
  exact fun h inside same => other (List.mem_map.mpr ⟨h, inside, (indexKeyIff.mp same).symm⟩)

theorem rebuiltIndices (found : s.table? table = some old)
    (distinct : (groups.map (nameKey ·.name)).Nodup)
    (effects : Change.Effects (groups.flatMap (Change.rebuildIndex table)) s t) :
    t.table? table =
      some { old with indices := apartFrom table groups old.indices ++ groups.map (indexOf table) } := by
  induction groups generalizing s old with
  | nil =>
    cases effects
    simpa [apartFrom] using found
  | cons g rest ih =>
    obtain ⟨other, distinct⟩ := List.nodup_cons.mp distinct
    obtain ⟨_, rfl, _, ⟨dropped, here, _, rfl⟩, later⟩ := effects
    cases (tableWithoutIndex found).symm.trans here
    have split (left right : List ColumnGroup) : apartFrom table rest (left ++ right) =
        apartFrom table rest left ++ apartFrom table rest right := List.filter_append left right
    rw [ih (tablePut _ _ _) distinct later]
    simp only [split, apartFromCons]
    rw [← indexOf, apartFromOthers other, List.append_assoc]
    rfl

theorem rebuildEffects (found : s.table? table = some old) (groups : List ColumnGroup) :
    ∃ t, Change.Effects (groups.flatMap (Change.rebuildIndex table)) s t := by
  induction groups generalizing s old with
  | nil => exact ⟨s, rfl⟩
  | cons g rest ih =>
    have cleared : (s.withoutIndex (Dialect.sqlite.indexName table g.name)).table? table = _ :=
      tableWithoutIndex found
    obtain ⟨t, later⟩ := ih (tablePut _ table _)
    exact ⟨t, _, rfl, _, ⟨_, cleared, indexGone _ _, rfl⟩, later⟩

theorem creationEffects {m : Model} (absent : s.find m.table = none) :
    ∃ t, Change.Effects (Session.creation m) s t := by
  obtain ⟨t, later⟩ := rebuildEffects (tablePut s m.table ⟨m.columns, m.uniques, [], []⟩) m.indices
  exact ⟨t, _, ⟨absent, rfl⟩, later⟩

theorem droppedIndices (found : s.table? table = some old)
    (effects : Change.Effects (groups.map fun g => .dropIndex table g.name) s t) :
    t.table? table = some { old with indices := apartFrom table groups old.indices } := by
  induction groups generalizing s old with
  | nil =>
    cases effects
    simpa [apartFrom] using found
  | cons g rest ih =>
    obtain ⟨_, ⟨_, rfl⟩, later⟩ := effects
    rw [ih (tableWithoutIndex found) later, apartFromCons]

theorem addedColumns {columns : List Column} (found : s.table? table = some old)
    (effects : Change.Effects (columns.map (.addColumn table)) s t) :
    ∃ rows, t.table? table = some { old with columns := old.columns ++ columns, rows } := by
  induction columns generalizing s old with
  | nil =>
    cases effects
    exact ⟨old.rows, by simpa using found⟩
  | cons c rest ih =>
    obtain ⟨_, ⟨before, rows, here, _, rfl⟩, later⟩ := effects
    cases found.symm.trans here
    obtain ⟨rows, others⟩ := ih (tablePut _ _ _) later
    exact ⟨rows, by simpa using others⟩

end

def Unharmed (name : String) (p : Option StoredObject → Prop) (s : Database) : Prop :=
  p (s.store.find name) ∧ ∀ saved ∈ s.saved, p (saved.find name)

theorem unharmedAnswer {other : String} {p : Option StoredObject → Prop} {r : Request} {reply : Reply}
    {s s' : Database} (answer : Answers .sqlite s r reply s') (here : Unharmed other p s)
    (changed : ∀ c sql arguments store, r = .statement (.change c) sql arguments →
      c.Effect .sqlite s.store store → p (store.find other))
    (copied : ∀ plan sql arguments store, r = .statement (.copy plan) sql arguments →
      plan.Effect s.store store → p (store.find other))
    (uncommanded : ∀ sql arguments, r ≠ .statement .command sql arguments) : Unharmed other p s' := by
  have back : Unharmed other p s.rolledBack := by
    refine ⟨?_, by simp [Database.rolledBack]⟩
    cases known : s.saved with
    | none => simpa [Database.rolledBack, known] using here.1
    | some saved => simpa [Database.rolledBack, known] using here.2 saved known
  cases answer with
  | refused => exact here
  | abandoned => exact back
  | start => exact ⟨here.1, by simpa using here.1⟩
  | commit => exact ⟨here.1, by simp⟩
  | rollback => exact back
  | @effect _ purpose sql arguments _ _ store effect =>
    refine ⟨?_, here.2⟩
    cases purpose with
    | catalog q =>
      have same : store = s.store := by
        cases q with
        | presence name => exact effect.1
        | _ => exact effect
      exact same ▸ here.1
    | change c => exact changed c sql arguments store rfl effect
    | copy plan => exact copied plan sql arguments store rfl effect
    | command => exact absurd rfl (uncommanded sql arguments)

section
variable {t other : String} {p : Option StoredObject → Prop} (differs : nameKey other ≠ nameKey t)
  (lessIndices : ∀ index object, p object → p (object.map (dropIndex index)))
  (noView : ∀ query, ¬ p (some (.view query)))
include differs lessIndices noView

theorem sparingElsewhere {c : Change} {s s' : Store} (spares : c.Spares t)
    (effect : c.Effect .sqlite s s') (here : p (s.find other)) : p (s'.find other) := by
  have apart {name : String} (same : nameKey name = nameKey t) (object : Option StoredObject) :
      p ((s.set name object).find other) := by
    rw [findOther (same ▸ differs)]
    exact here
  cases c with
  | createTable table columns uniques =>
    obtain ⟨_, rfl⟩ := effect
    exact apart spares _
  | dropTable table => exact spares.elim
  | renameTable source target => exact spares.elim
  | addColumn table column =>
    obtain ⟨_, _, _, _, rfl⟩ := effect
    exact apart spares _
  | addUnique table group =>
    obtain ⟨_, _, rfl⟩ := effect
    exact apart spares _
  | createIndex table group =>
    obtain ⟨_, _, _, rfl⟩ := effect
    exact apart spares _
  | dropIndex table group =>
    obtain ⟨_, rfl⟩ := effect
    exact lessIndices _ _ here
  | dropIndexIfExists table group =>
    cases effect
    exact lessIndices _ _ here
  | dropView view =>
    obtain ⟨⟨query, isView⟩, rfl⟩ := effect
    have name : nameKey other ≠ nameKey view := by
      intro same
      rw [findCongr same, isView] at here
      exact noView query here
    rw [remove, findOther name]
    exact here

theorem sparingEffects {cs : List Change} {s s' : Store} (spares : ∀ c ∈ cs, c.Spares t)
    (effects : Change.Effects cs s s') (here : p (s.find other)) : p (s'.find other) := by
  induction cs generalizing s with
  | nil => exact effects ▸ here
  | cons c rest ih =>
    obtain ⟨first, others⟩ := List.forall_mem_cons.mp spares
    obtain ⟨mid, effect, later⟩ := effects
    exact ih others later (sparingElsewhere differs lessIndices noView first effect here)

theorem sparingUnharmed {r : Request} {reply : Reply} {s s' : Database} (spares : r.Spares t)
    (answer : Answers .sqlite s r reply s') (here : Unharmed other p s) : Unharmed other p s' := by
  refine unharmedAnswer answer here ?_ ?_ ?_
  · rintro c sql arguments store rfl effect
    exact sparingElsewhere differs lessIndices noView spares effect here.1
  · rintro plan sql arguments store rfl ⟨_, _, _, _, _, _, rfl⟩
    have target : nameKey plan.target = nameKey t := spares
    have same := findPut (s := s.store) (target ▸ differs)
    exact (same _).symm ▸ here.1
  · rintro sql arguments rfl
    exact spares

theorem unharmedTrace {α : Type} {world : World Database} {session q : Session α} {s u : Database}
    {log : List (Exchange Database)} (honest : ∀ s r reply t, world s r reply t → Answers .sqlite s r reply t)
    (spares : session.Sends (Request.Spares t)) (here : Unharmed other p s)
    (trace : Session.Trace world session s log q u) : Unharmed other p u :=
  Session.traceKeeps (Unharmed other p) spares (fun _ _ _ _ kept spares answer =>
    sparingUnharmed differs lessIndices noView spares (honest _ _ _ _ answer) kept) here trace

theorem unharmedEnd {α : Type} {session q : Session α} {s u : Database} {log : List (Exchange Database)}
    (spares : session.Sends (Request.Spares t)) (here : Unharmed other p s)
    (trace : Session.Trace Tells session s log q u) : Unharmed other p u :=
  unharmedTrace differs lessIndices noView (fun _ _ _ _ tells => tells.answers) spares here trace

end

end Store

end LiveSchema
