import LiveSchema.Session.Basic
/-! What can be seen of a session from outside: its exchanges with whatever answers it. A trace may stop
after any exchange, so a session that is cut off has traces too. An observer keeps notes of the exchanges
so far and allows or forbids the next one; no assumption is made on who answers. -/
namespace LiveSchema

def Request.changes (kind : Change → Bool) : Request → Bool
  | .statement (.change c) _ _ => kind c
  | _ => false

def Reply.succeeded : Reply → Bool
  | .answered _ _ => true
  | .failed _ => false

structure Exchange (σ : Type) where
  before : σ
  request : Request
  reply : Reply
  after : σ

namespace Exchange

variable {σ : Type}

def asked (kind : Change → Bool) (x : Exchange σ) : Bool := x.request.changes kind

def did (kind : Change → Bool) (x : Exchange σ) : Bool := x.reply.succeeded && x.asked kind

@[simp]
theorem didChange {s t : σ} {kind : Change → Bool} {c sql arguments rows affected} :
    did kind ⟨s, .statement (.change c) sql arguments, .answered rows affected, t⟩ = kind c :=
  rfl

@[simp]
theorem didNothing {s t : σ} {kind : Change → Bool} {request report} :
    did kind ⟨s, request, .failed report, t⟩ = false :=
  rfl

def Done (x : Exchange σ) (request : Request) : Prop := x.request = request ∧ x.reply.succeeded = true

def chain : σ → List (Request × Reply × σ) → List (Exchange σ)
  | _, [] => []
  | s, (request, reply, t) :: rest => ⟨s, request, reply, t⟩ :: chain t rest

end Exchange

def Reply.result (sql : String) : Reply → Except Failure (List Row × Nat)
  | .failed report => .error (.execution sql report)
  | .answered rows affected => .ok (rows, affected)

abbrev World (σ : Type) := σ → Request → Reply → σ → Prop

structure Observer (σ γ : Type) where
  world : World σ
  note : γ → Exchange σ → γ
  allows : γ → Exchange σ → Prop

def Along {γ ε : Type} (note : γ → ε → γ) (right : γ → ε → Prop) : γ → List ε → Prop
  | _, [] => True
  | notes, x :: rest => right notes x ∧ Along note right (note notes x) rest

section
variable {γ ε δ : Type} {note : γ → ε → γ} {right : γ → ε → Prop}

theorem alongAppend (notes : γ) (xs ys : List ε) :
    Along note right notes (xs ++ ys) ↔
      Along note right notes xs ∧ Along note right (xs.foldl note notes) ys := by
  induction xs generalizing notes with
  | nil => simp [Along]
  | cons x rest ih => simp only [List.cons_append, Along, List.foldl_cons, ih, and_assoc]

theorem alongMap (label : δ → ε) (notes : γ) (xs : List δ) :
    Along note right notes (xs.map label) ↔
      Along (fun n x => note n (label x)) (fun n x => right n (label x)) notes xs := by
  induction xs generalizing notes with
  | nil => simp [Along]
  | cons x rest ih => simp only [List.map_cons, Along, ih]

end

namespace Session

variable {α β σ γ : Type}

inductive Trace (world : World σ) : Session α → σ → List (Exchange σ) → Session α → σ → Prop where
  | stop (p : Session α) (s : σ) : Trace world p s [] p s
  | ask {request next s reply t log q u} (answer : world s request reply t)
      (rest : Trace world (next reply) t log q u) :
      Trace world (.ask request next) s (⟨s, request, reply, t⟩ :: log) q u

/-- Whatever is answered, every exchange is allowed, and the end is as the postcondition says. -/
def Obeys (o : Observer σ γ) (post : Except Failure α → σ → γ → Prop) : Session α → σ → γ → Prop
  | .done a, s, notes => post (.ok a) s notes
  | .fail e, s, notes => post (.error e) s notes
  | .ask request next, s, notes => ∀ reply t, o.world s request reply t →
      o.allows notes ⟨s, request, reply, t⟩ ∧
        (next reply).Obeys o post t (o.note notes ⟨s, request, reply, t⟩)

section
variable {o : Observer σ γ} {post : Except Failure α → σ → γ → Prop}

theorem obeysMono {post' : Except Failure α → σ → γ → Prop} {p : Session α} {s notes}
    (obeys : p.Obeys o post s notes) (weaker : ∀ r t n, post r t n → post' r t n) :
    p.Obeys o post' s notes := by
  induction p generalizing s notes with
  | done a => exact weaker _ _ _ obeys
  | fail e => exact weaker _ _ _ obeys
  | ask request next ih =>
    intro reply t answer
    have here := obeys reply t answer
    exact ⟨here.1, ih reply here.2⟩

theorem obeysBind {post : Except Failure β → σ → γ → Prop} {p : Session α} {f : α → Session β}
    {s notes}
    (first : p.Obeys o (fun
      | .ok a, t, n => (f a).Obeys o post t n
      | .error e, t, n => post (.error e) t n) s notes) :
    (p >>= f).Obeys o post s notes := by
  induction p generalizing s notes with
  | done a => exact first
  | fail e => exact first
  | ask request next ih =>
    intro reply t answer
    have here := first reply t answer
    exact ⟨here.1, ih reply here.2⟩

theorem obeysThen {invariant : σ → γ → Prop} {p : Session α} {f : α → Session β} {s notes}
    (first : p.Obeys o (fun _ => invariant) s notes)
    (next : ∀ a t n, invariant t n → (f a).Obeys o (fun _ => invariant) t n) :
    (p >>= f).Obeys o (fun _ => invariant) s notes := by
  refine obeysBind (obeysMono first ?_)
  intro result t n kept
  cases result with
  | ok a => exact next a t n kept
  | error e => exact kept

theorem obeysOutcome {post : Except Failure (Except Failure α) → σ → γ → Prop} {p : Session α}
    {s notes} (inner : p.Obeys o (fun r => post (.ok r)) s notes) :
    p.outcome.Obeys o post s notes := by
  induction p generalizing s notes with
  | done a => exact inner
  | fail e => exact inner
  | ask request next ih =>
    intro reply t answer
    have here := inner reply t answer
    exact ⟨here.1, ih reply here.2⟩

theorem obeysOfExcept {ε : Type} {cause : ε → Failure} {x : Except ε α} {s notes}
    (ok : ∀ a, x = .ok a → post (.ok a) s notes)
    (error : ∀ e, x = .error e → post (.error (cause e)) s notes) :
    (ofExcept cause x).Obeys o post s notes := by
  cases x with
  | ok a => exact ok a rfl
  | error e => exact error e rfl

theorem obeysSend {post : Except Failure (List Row × Nat) → σ → γ → Prop} {purpose sql arguments}
    {s notes}
    (answered : ∀ reply t, o.world s (.statement purpose sql arguments) reply t →
      o.allows notes ⟨s, .statement purpose sql arguments, reply, t⟩ ∧
        post (reply.result sql) t (o.note notes ⟨s, .statement purpose sql arguments, reply, t⟩)) :
    (send purpose sql arguments).Obeys o post s notes := by
  intro reply t answer
  have here := answered reply t answer
  cases reply <;> exact here

theorem obeysChange {post : Except Failure Unit → σ → γ → Prop} {d : Dialect} {c : Change} {s notes}
    (unsent : ∀ e, post (.error e) s notes)
    (answered : ∀ sql reply t, o.world s (.statement (.change c) sql []) reply t →
      o.allows notes ⟨s, .statement (.change c) sql [], reply, t⟩ ∧
        post ((reply.result sql).map fun _ => ()) t
          (o.note notes ⟨s, .statement (.change c) sql [], reply, t⟩)) :
    (change d c).Obeys o post s notes := by
  refine obeysBind (obeysOfExcept ?_ fun e _ => unsent _)
  intro sql _
  refine obeysBind (obeysSend ?_)
  intro reply t answer
  have here := answered sql reply t answer
  cases reply <;> exact here

theorem obeyedTrace {p q : Session α} {s u notes log} (obeys : p.Obeys o post s notes)
    (trace : Trace o.world p s log q u) : Along o.note o.allows notes log := by
  induction trace generalizing notes with
  | stop p s => trivial
  | ask answer rest ih =>
    have here := obeys _ _ answer
    exact ⟨here.1, ih here.2⟩

theorem obeyedEnd {p q : Session α} {s u notes log} {invariant : σ → γ → Prop}
    (kept : ∀ n x, o.allows n x → invariant x.after (o.note n x))
    (start : invariant s notes) (obeys : p.Obeys o post s notes)
    (trace : Trace o.world p s log q u) : invariant u (log.foldl o.note notes) := by
  induction trace generalizing notes with
  | stop p s => exact start
  | ask answer rest ih =>
    have here := obeys _ _ answer
    exact ih (kept _ _ here.1) here.2

end

section
variable {world : World σ} {s u : σ} {log : List (Exchange σ)}

theorem traceOfFail {e : Failure} {b : α} (trace : Trace world (.fail e) s log (.done b) u) : False := by
  cases trace

theorem traceOfAsk {request : Request} {next : Reply → Session α} {b : α}
    (trace : Trace world (.ask request next) s log (.done b) u) :
    ∃ reply t rest, log = ⟨s, request, reply, t⟩ :: rest ∧ world s request reply t ∧
      Trace world (next reply) t rest (.done b) u := by
  cases trace with
  | ask answer rest => exact ⟨_, _, _, rfl, answer, rest⟩

theorem traceOfBind {p : Session α} {f : α → Session β} {b : β}
    (trace : Trace world (p >>= f) s log (.done b) u) :
    ∃ a first rest t, log = first ++ rest ∧ Trace world p s first (.done a) t ∧
      Trace world (f a) t rest (.done b) u := by
  induction p generalizing s log with
  | done a => exact ⟨a, [], log, s, rfl, .stop _ _, trace⟩
  | fail e => exact (traceOfFail trace).elim
  | ask request next ih =>
    obtain ⟨reply, t, rest, rfl, answer, later⟩ := traceOfAsk trace
    obtain ⟨a, first, last, v, rfl, here, after⟩ := ih reply later
    exact ⟨a, _ :: first, last, v, rfl, .ask answer here, after⟩

theorem traceOfOutcome {p : Session α} {a : α}
    (trace : Trace world p.outcome s log (.done (.ok a)) u) : Trace world p s log (.done a) u := by
  induction p generalizing s log with
  | done b => cases trace; exact .stop _ _
  | fail e => cases trace
  | ask request next ih =>
    obtain ⟨reply, t, rest, rfl, answer, later⟩ := traceOfAsk trace
    exact .ask answer (ih reply later)

theorem traceOfSend {purpose sql arguments answer}
    (trace : Trace world (send purpose sql arguments) s log (.done answer) u) :
    ∃ x : Exchange σ, log = [x] ∧ x.Done (.statement purpose sql arguments) := by
  obtain ⟨reply, t, rest, rfl, _, later⟩ := traceOfAsk trace
  cases reply with
  | failed report => exact (traceOfFail later).elim
  | answered rows affected =>
    cases later
    exact ⟨_, rfl, rfl, rfl⟩

theorem traceOfStep {step : TransactionStep} {result : Unit}
    (trace : Trace world (transactionStep step) s log (.done result) u) :
    ∃ x : Exchange σ, log = [x] ∧ x.Done (.transaction step) := by
  obtain ⟨reply, t, rest, rfl, _, later⟩ := traceOfAsk trace
  cases reply with
  | failed report => exact (traceOfFail later).elim
  | answered rows affected =>
    cases later
    exact ⟨_, rfl, rfl, rfl⟩

theorem traceOfTransaction {body : Session α} {a : α}
    (trace : Trace world (inTransaction body) s log (.done a) u) :
    ∃ start inner commit t v, log = start :: inner ++ [commit] ∧ start.Done (.transaction .start) ∧
      Trace world body t inner (.done a) v ∧ commit.Done (.transaction .commit) := by
  obtain ⟨_, first, rest, t, rfl, starting, later⟩ := traceOfBind trace
  obtain ⟨start, rfl, started⟩ := traceOfStep starting
  obtain ⟨result, inner, last, v, rfl, body, later⟩ := traceOfBind later
  cases result with
  | error e =>
    obtain ⟨_, _, _, _, _, _, failing⟩ := traceOfBind later
    exact (traceOfFail failing).elim
  | ok b =>
    obtain ⟨_, last, rest, _, rfl, committing, ending⟩ := traceOfBind later
    obtain ⟨commit, rfl, committed⟩ := traceOfStep committing
    cases ending
    exact ⟨start, inner, _, t, v, rfl, started, traceOfOutcome body, committed⟩

end

def accepts : Session α → List (Request × Reply × σ) → Bool
  | _, [] => true
  | .ask request next, (asked, reply, _) :: rest => request = asked && (next reply).accepts rest
  | _, _ :: _ => false

def Answered (world : World σ) : σ → List (Request × Reply × σ) → Prop
  | _, [] => True
  | s, (request, reply, t) :: rest => world s request reply t ∧ Answered world t rest

theorem anyAnswer (s : σ) (steps : List (Request × Reply × σ)) : Answered (fun _ _ _ _ => True) s steps := by
  induction steps generalizing s with
  | nil => trivial
  | cons step rest ih => exact ⟨trivial, ih _⟩

theorem acceptedTrace {world : World σ} {p : Session α} {s steps} (requests : p.accepts steps = true)
    (answers : Answered world s steps) :
    ∃ q, Trace world p s (Exchange.chain s steps) q (steps.foldl (fun _ step => step.2.2) s) := by
  induction steps generalizing p s with
  | nil => exact ⟨p, .stop p s⟩
  | cons step rest ih =>
    obtain ⟨asked, reply, t⟩ := step
    cases p with
    | done a => simp [accepts] at requests
    | fail e => simp [accepts] at requests
    | ask request next =>
      simp only [accepts, Bool.and_eq_true, decide_eq_true_eq] at requests
      obtain ⟨rfl, others⟩ := requests
      obtain ⟨q, trace⟩ := ih others answers.2
      exact ⟨q, .ask answers.1 trace⟩

end Session

end LiveSchema
