import LiveSchema.Proofs.Requests
/-! Traces of sessions that have come to their end, with a result or with a failure. What a trace says
about a session is read off part by part, in the way the session is put together. -/
namespace LiveSchema

theorem countedOnce {α : Type} {p : α → Bool} {x : α} {earlier later : List α} (here : p x = true)
    (others : ∀ y ∈ earlier ++ later, p y = false) : (earlier ++ x :: later).countP p = 1 := by
  have apart : (earlier ++ later).countP p = 0 :=
    List.countP_eq_zero.mpr fun y member => Bool.eq_false_iff.mp (others y member)
  rw [List.countP_append] at apart
  simp only [List.countP_append, List.countP_cons, here, if_true]
  omega

namespace Exchange
variable {σ : Type}

/-- A refused rollback does not count, since the transaction is gone all the same. -/
def refused (x : Exchange σ) : Bool :=
  !x.reply.succeeded && decide (x.request ≠ .transaction .rollback)

end Exchange

namespace Session
variable {α β σ : Type} {world : World σ} {s u : σ} {log : List (Exchange σ)}

def ended : Except Failure α → Session α
  | .ok a => .done a
  | .error e => .fail e

section
variable {result : Except Failure β}

theorem endOfDone {a : β} (trace : Trace world (.done a) s log (ended result) u) :
    log = [] ∧ u = s ∧ result = .ok a := by
  cases result <;> cases trace
  exact ⟨rfl, rfl, rfl⟩

theorem endOfFail {e : Failure} (trace : Trace world (.fail e) s log (ended result) u) :
    log = [] ∧ u = s ∧ result = .error e := by
  cases result <;> cases trace
  exact ⟨rfl, rfl, rfl⟩

theorem endOfAsk {request : Request} {next : Reply → Session β}
    (trace : Trace world (.ask request next) s log (ended result) u) :
    ∃ reply t rest, log = ⟨s, request, reply, t⟩ :: rest ∧ world s request reply t ∧
      Trace world (next reply) t rest (ended result) u := by
  cases result <;> cases trace with
  | ask answer rest => exact ⟨_, _, _, rfl, answer, rest⟩

theorem endOfBind {p : Session α} {f : α → Session β}
    (trace : Trace world (p >>= f) s log (ended result) u) :
    (∃ a first rest t, log = first ++ rest ∧ Trace world p s first (ended (.ok a)) t ∧
      Trace world (f a) t rest (ended result) u) ∨
    ∃ e, result = .error e ∧ Trace world p s log (ended (.error e)) u := by
  induction p generalizing s log with
  | done a => exact .inl ⟨a, [], log, s, rfl, .stop _ _, trace⟩
  | fail e =>
    obtain ⟨rfl, rfl, rfl⟩ := endOfFail trace
    exact .inr ⟨e, rfl, .stop _ _⟩
  | ask request next ih =>
    obtain ⟨reply, t, rest, rfl, answer, later⟩ := endOfAsk trace
    rcases ih reply later with ⟨a, first, last, v, rfl, here, after⟩ | ⟨e, rfl, here⟩
    · exact .inl ⟨a, _ :: first, last, v, rfl, .ask answer here, after⟩
    · exact .inr ⟨e, rfl, .ask answer here⟩

theorem endOfMap {p : Session α} {f : α → β}
    (trace : Trace world (p >>= fun a => .done (f a)) s log (ended result) u) :
    ∃ inner, Trace world p s log (ended inner) u ∧ result = inner.map f := by
  rcases endOfBind trace with ⟨a, first, rest, t, rfl, here, later⟩ | ⟨e, rfl, here⟩
  · obtain ⟨rfl, rfl, rfl⟩ := endOfDone later
    exact ⟨.ok a, by rwa [List.append_nil], rfl⟩
  · exact ⟨.error e, here, rfl⟩

theorem endOfBindOk {p : Session α} {f : α → Session β} {b : β}
    (trace : Trace world (p >>= f) s log (ended (.ok b)) u) :
    ∃ a first rest t, log = first ++ rest ∧ Trace world p s first (ended (.ok a)) t ∧
      Trace world (f a) t rest (ended (.ok b)) u :=
  traceOfBind trace

theorem endOfOutcome {p : Session α} {result : Except Failure (Except Failure α)}
    (trace : Trace world p.outcome s log (ended result) u) :
    ∃ inner, result = .ok inner ∧ Trace world p s log (ended inner) u := by
  induction p generalizing s log with
  | done a =>
    obtain ⟨rfl, rfl, rfl⟩ := endOfDone trace
    exact ⟨.ok a, rfl, .stop _ _⟩
  | fail e =>
    obtain ⟨rfl, rfl, rfl⟩ := endOfDone trace
    exact ⟨.error e, rfl, .stop _ _⟩
  | ask request next ih =>
    obtain ⟨reply, t, rest, rfl, answer, later⟩ := endOfAsk trace
    obtain ⟨inner, rfl, here⟩ := ih reply later
    exact ⟨inner, rfl, .ask answer here⟩

theorem endOfSend {purpose sql arguments} {result : Except Failure (List Row × Nat)}
    (trace : Trace world (send purpose sql arguments) s log (ended result) u) :
    ∃ reply, log = [⟨s, .statement purpose sql arguments, reply, u⟩] ∧
      world s (.statement purpose sql arguments) reply u ∧ result = reply.result sql := by
  obtain ⟨reply, t, rest, rfl, answer, later⟩ := endOfAsk trace
  cases reply with
  | failed report =>
    obtain ⟨rfl, rfl, rfl⟩ := endOfFail later
    exact ⟨_, rfl, answer, rfl⟩
  | answered rows affected =>
    obtain ⟨rfl, rfl, rfl⟩ := endOfDone later
    exact ⟨_, rfl, answer, rfl⟩

theorem endOfStep {step : TransactionStep} {result : Except Failure Unit}
    (trace : Trace world (transactionStep step) s log (ended result) u) :
    ∃ reply, log = [⟨s, .transaction step, reply, u⟩] ∧ world s (.transaction step) reply u ∧
      (reply.succeeded = true ∧ result = .ok () ∨
        ∃ report, reply = .failed report ∧ result = .error (.transaction step report)) := by
  obtain ⟨reply, t, rest, rfl, answer, later⟩ := endOfAsk trace
  cases reply with
  | failed report =>
    obtain ⟨rfl, rfl, rfl⟩ := endOfFail later
    exact ⟨_, rfl, answer, .inr ⟨report, rfl, rfl⟩⟩
  | answered rows affected =>
    obtain ⟨rfl, rfl, rfl⟩ := endOfDone later
    exact ⟨_, rfl, answer, .inl ⟨rfl, rfl⟩⟩

theorem bindTrace {p : Session α} {f : α → Session β} {a : α} {first rest : List (Exchange σ)} {t : σ}
    {q : Session β} (here : Trace world p s first (.done a) t) (after : Trace world (f a) t rest q u) :
    Trace world (p >>= f) s (first ++ rest) q u := by
  induction first generalizing p s with
  | nil => cases here; exact after
  | cons x first ih =>
    cases here with
    | ask answer later => exact .ask answer (ih later)

theorem bindLast {p : Session α} {f : α → Session β} {a : α} {b : β} {t : σ}
    (here : Trace world p s log (.done a) t) (last : f a = .done b) :
    Trace world (p >>= f) s log (.done b) t := by
  rw [← List.append_nil log]
  exact bindTrace here (last ▸ .stop _ _)

theorem obeyedResult {γ : Type} {o : Observer σ γ} {post : Except Failure α → σ → γ → Prop} {notes : γ}
    {p : Session α} {result : Except Failure α} (obeys : p.Obeys o post s notes)
    (trace : Trace o.world p s log (ended result) u) : post result u (log.foldl o.note notes) := by
  induction p generalizing s log notes with
  | done a =>
    obtain ⟨rfl, rfl, rfl⟩ := endOfDone trace
    exact obeys
  | fail e =>
    obtain ⟨rfl, rfl, rfl⟩ := endOfFail trace
    exact obeys
  | ask request next ih =>
    obtain ⟨reply, t, rest, rfl, answer, later⟩ := endOfAsk trace
    have here := ih reply (obeys reply t answer).2 later
    exact here

end

def followed : Session α → List (Request × Reply × σ) → Session α
  | .ask _ next, (_, reply, _) :: rest => (next reply).followed rest
  | p, _ => p

theorem followedTrace {p : Session α} {steps : List (Request × Reply × σ)}
    (requests : p.accepts steps = true) (answers : Answered world s steps) :
    Trace world p s (Exchange.chain s steps) (p.followed steps)
      (steps.foldl (fun _ step => step.2.2) s) := by
  induction steps generalizing p s with
  | nil => cases p <;> exact .stop _ _
  | cons step rest ih =>
    obtain ⟨asked, reply, t⟩ := step
    cases p with
    | done a => simp [accepts] at requests
    | fail e => simp [accepts] at requests
    | ask request next =>
      simp only [accepts, Bool.and_eq_true, decide_eq_true_eq] at requests
      obtain ⟨rfl, others⟩ := requests
      exact .ask answers.1 (ih others answers.2)

theorem traceSends {allowed : Request → Prop} {p q : Session α} (sends : p.Sends allowed)
    (trace : Trace world p s log q u) : ∀ x ∈ log, allowed x.request := by
  induction trace with
  | stop => exact fun x none => nomatch none
  | ask answer rest ih =>
    refine List.forall_mem_cons.mpr ⟨sends.1, ih (sends.2 _)⟩

theorem traceKeeps {allowed : Request → Prop} (invariant : σ → Prop) {p q : Session α}
    (sends : p.Sends allowed)
    (kept : ∀ s request reply t, invariant s → allowed request → world s request reply t → invariant t)
    (start : invariant s) (trace : Trace world p s log q u) : invariant u := by
  induction trace with
  | stop => exact start
  | ask answer rest ih => exact ih (sends.2 _) (kept _ _ _ _ start sends.1 answer)

theorem traceKeepsEach {allowed : Request → Prop} (invariant : σ → Prop) {p q : Session α}
    (sends : p.Sends allowed)
    (kept : ∀ s request reply t, invariant s → allowed request → world s request reply t → invariant t)
    (start : invariant s) (trace : Trace world p s log q u) : ∀ x ∈ log, invariant x.after := by
  induction trace with
  | stop => exact fun x none => nomatch none
  | ask answer rest ih =>
    have next := kept _ _ _ _ start sends.1 answer
    exact List.forall_mem_cons.mpr ⟨next, ih (sends.2 _) next⟩

end Session

end LiveSchema
