import SpinFleet.Api.Client
/-!
# Requests — exchanges with a server that others write to

What the operator calls one call may be several requests, and between two of them anybody may write to the server.
`Exchange.Run S p s t s' o` says what can happen then: from a state `s` of the server `S` the exchange `p` takes the
turns `t`, which are its own requests and the edits of others, leaves the server in `s'`, and has come to the result
`o`, or to none if it was cut.

`Exchange.Run.of_send` takes a run apart at its first request.  Reading an object and patching one, or its status, are
a single request each (`Resource.get?_run`, `Resource.merge_run`, `Resource.mergeStatus_run`).
-/
namespace SpinFleet

inductive Turn (ε : Type)
  | request (r : Request)
  /-- Another client edits. -/
  | edit (x : ε)

/-- A server: how it serves a request, and what the edits of other clients do to it. -/
structure Server (σ ε : Type) where
  serves : σ → Request → Response → σ → Prop
  edits : σ → ε → σ → Prop

inductive Server.Edited {σ ε : Type} (S : Server σ ε) : σ → List ε → σ → Prop
  | nil (s : σ) : S.Edited s [] s
  | cons {s s₁ s' : σ} {x : ε} {xs : List ε} (h : S.edits s x s₁) (hs : S.Edited s₁ xs s') : S.Edited s (x :: xs) s'

namespace Exchange

variable {α σ ε : Type} {S : Server σ ε}

inductive Run (S : Server σ ε) : Exchange α → σ → List (Turn ε) → σ → Option α → Prop
  | cut {p s} : Run S p s [] s none
  | done {a s} : Run S (.done a) s [] s (some a)
  | send {r next s x s₁ t s' o} (h : S.serves s r x s₁) (hn : Run S (next x) s₁ t s' o) :
      Run S (.send r next) s (.request r :: t) s' o
  | edit {p s x s₁ t s' o} (h : S.edits s x s₁) (hn : Run S p s₁ t s' o) : Run S p s (.edit x :: t) s' o

namespace Run

variable {s s₁ s' : σ} {t : List (Turn ε)} {o : Option α} {p : Exchange α}

theorem edited {xs : List ε} (h : S.Edited s xs s₁) (hn : Run S p s₁ t s' o) :
    Run S p s (xs.map .edit ++ t) s' o := by
  induction h with
  | nil => exact hn
  | cons h _ ih => exact .edit h (ih hn)

theorem of_done {a b : α} (h : Run S (.done a) s t s' (some b)) :
    b = a ∧ ∃ xs, t = xs.map .edit ∧ S.Edited s xs s' := by
  generalize hp : Exchange.done a = p at h
  generalize ho : some b = o at h
  induction h with
  | cut => cases ho
  | done =>
    cases hp
    exact ⟨Option.some.inj ho, [], rfl, .nil _⟩
  | edit hx _ ih =>
    obtain ⟨hb, xs, rfl, hxs⟩ := ih hp ho
    exact ⟨hb, _ :: xs, rfl, .cons hx hxs⟩
  | send => cases hp

/-- **An exchange with a request before it** comes to a result only if the request is served, after some edits. -/
theorem of_send {r : Request} {next : Response → Exchange α} {a : α} (h : Run S (.send r next) s t s' (some a)) :
    ∃ xs x s₁ s₂ u, t = xs.map .edit ++ .request r :: u ∧ S.Edited s xs s₁ ∧ S.serves s₁ r x s₂ ∧
      Run S (next x) s₂ u s' (some a) := by
  generalize hp : Exchange.send r next = p at h
  generalize ho : some a = o at h
  induction h with
  | cut => cases ho
  | done => cases hp
  | send h hn =>
    cases hp
    exact ⟨[], _, _, _, _, rfl, .nil _, h, ho ▸ hn⟩
  | edit hx _ ih =>
    obtain ⟨xs, x, s₁, s₂, u, rfl, hxs, hserve, hn⟩ := ih hp ho
    exact ⟨_ :: xs, x, s₁, s₂, u, rfl, .cons hx hxs, hserve, hn⟩

end Run

end Exchange

theorem Talk.bind_run {α β : Type} (x : Talk α) (f : α → Talk β) :
    (x >>= f).run = x.run.bind fun r => match r with
      | .ok a => (f a).run
      | .error e => .done (.error e) := by
  show Exchange.bind _ _ = _
  congr 1
  funext r
  cases r <;> rfl

def Response.isRefusal (x : Response) : Prop := 400 ≤ x.status ∧ x.status < 600

instance (x : Response) : Decidable x.isRefusal := inferInstanceAs (Decidable (_ ∧ _))

/-! ## Single requests -/

namespace Resource

variable {α : Type}

def address (k : Resource α) (ns name rest : String) : Except ApiError Uri.Target :=
  if name.isEmpty then .error (.badRequest "failed to validate request: A non-empty name is required")
  else match Uri.parse (k.path ns ++ "/" ++ name ++ rest) with
    | .ok t => .ok t
    | .error f => .error (.badRequest ("failed to build request: " ++ f.message))

def answer (k : Resource α) (x : Response) : Except ApiError α :=
  if x.isRefusal then .error (.refused (.ofResponse x))
  else match k.codec.decodeText x.text with
    | .ok a => .ok a
    | .error e => .error (.badAnswer e.text)

/-- The object that a response tells of, none if it says that there is none. -/
def answer? (k : Resource α) (x : Response) : Except ApiError (Option α) :=
  match k.answer x with
  | .ok a => .ok (some a)
  | .error e => if e.isNotFound then .ok none else .error e

theorem answer_of_text {k : Resource α} {x : Response} {a : α} (hx : ¬ x.isRefusal)
    (htext : k.codec.decodeText x.text = .ok a) : k.answer x = .ok a := by
  rw [answer, if_neg hx, htext]

theorem answer?_of_text {k : Resource α} {x : Response} {a : α} (hx : ¬ x.isRefusal)
    (htext : k.codec.decodeText x.text = .ok a) : k.answer? x = .ok (some a) := by
  rw [answer?, answer_of_text hx htext]

theorem answer?_of_refusal {k : Resource α} {x : Response} (hx : x.isRefusal) :
    k.answer? x = if (ApiError.refused (.ofResponse x)).isNotFound then .ok none
      else .error (.refused (.ofResponse x)) := by
  rw [answer?, answer, if_pos hx]

theorem request_run (k : Resource α) (r : Request) :
    (do Talk.decode k.codec (← Talk.request r) : Talk α).run = .send r fun x => .done (k.answer x) := by
  rw [Talk.bind_run]
  show Exchange.send _ _ = _
  congr 1
  funext x
  show Exchange.bind (.done (if x.isRefusal then _ else _)) _ = _
  by_cases hx : x.isRefusal
  · rw [answer, if_pos hx, if_pos hx]
    rfl
  · rw [answer, if_neg hx, if_neg hx]
    show ExceptT.run (Talk.decode k.codec x.text) = _
    unfold Talk.decode
    cases k.codec.decodeText x.text <;> rfl

theorem get_run (k : Resource α) (ns name : String) : (k.get ns name).run = match k.address ns name "" with
    | .error e => .done (.error e)
    | .ok t => .send ⟨"GET", t, none, none, none⟩ fun x => .done (k.answer x) := by
  unfold get objectPath address target
  split
  · rfl
  · rw [String.append_empty]
    show ExceptT.run (do let t ← _; Talk.decode k.codec (← Talk.request ⟨"GET", t, none, none, none⟩)) = _
    cases Uri.parse (k.path ns ++ "/" ++ name) with
    | error f => rfl
    | ok t => exact k.request_run _

theorem address_isNotFound {k : Resource α} {ns name rest : String} {e : ApiError}
    (h : k.address ns name rest = .error e) : e.isNotFound = false := by
  unfold address at h
  split at h
  · cases h
    rfl
  · split at h
    · cases h
    · cases h
      rfl

/-- **Reading an object** is one request. -/
theorem get?_run (k : Resource α) (ns name : String) : (k.get? ns name).run = match k.address ns name "" with
    | .error e => .done (.error e)
    | .ok t => .send ⟨"GET", t, none, none, none⟩ fun x => .done (k.answer? x) := by
  have hget := k.get_run ns name
  unfold get?
  generalize k.get ns name = p at hget ⊢
  cases ha : k.address ns name "" with
  | error e =>
    rw [ha] at hget
    obtain rfl : p = ExceptT.mk (.done (.error e)) := hget
    have he := address_isNotFound ha
    show Exchange.bind (ExceptT.run (ExceptT.mk (if e.isNotFound then _ else _))) _ = _
    rw [he]
    rfl
  | ok t =>
    rw [ha] at hget
    obtain rfl : p = ExceptT.mk (.send ⟨"GET", t, none, none, none⟩ fun x => .done (k.answer x)) := hget
    show Exchange.send _ _ = _
    congr 1
    funext x
    unfold answer?
    dsimp only
    cases k.answer x with
    | ok a => rfl
    | error e =>
      show Exchange.bind (ExceptT.run (if e.isNotFound then _ else _)) _ =
        Exchange.done (if e.isNotFound then Except.ok none else Except.error e)
      cases e.isNotFound <;> rfl

theorem get?_bind_run {β : Type} (k : Resource α) (ns name : String) (f : Option α → Talk β) :
    (k.get? ns name >>= f).run = match k.address ns name "" with
      | .error e => .done (.error e)
      | .ok t => .send ⟨"GET", t, none, none, none⟩ fun x => match k.answer? x with
        | .ok a => (f a).run
        | .error e => .done (.error e) := by
  rw [Talk.bind_run, get?_run]
  cases k.address ns name "" with
  | error e => rfl
  | ok t =>
    show Exchange.send _ _ = Exchange.send _ _
    congr 1
    funext x
    show Exchange.bind (.done (k.answer? x)) _ = _
    cases k.answer? x <;> rfl

theorem mergeAt_run (k : Resource α) (path : String) (patch : Json) :
    (k.mergeAt path patch).run = match Uri.parse (path ++ "?") with
    | .error f => .done (.error (.badRequest ("failed to build request: " ++ f.message)))
    | .ok t => .send ⟨"PATCH", t, some "application/merge-patch+json", some json, some patch⟩
        fun x => .done (k.answer x) := by
  unfold mergeAt target
  show ExceptT.run (do
    let t ← _
    Talk.decode k.codec (← Talk.request ⟨"PATCH", t, some "application/merge-patch+json", some json, some patch⟩)) = _
  cases Uri.parse (path ++ "?") with
  | error f => rfl
  | ok t => exact k.request_run _

/-- **Patching an object** is one request. -/
theorem merge_run (k : Resource α) (ns name : String) (patch : Json) :
    (k.merge ns name patch).run = match k.address ns name "?" with
    | .error e => .done (.error e)
    | .ok t => .send ⟨"PATCH", t, some "application/merge-patch+json", some json, some patch⟩
        fun x => .done (k.answer x) := by
  unfold merge objectPath address
  split
  · rfl
  · refine (k.mergeAt_run _ patch).trans ?_
    cases Uri.parse (k.path ns ++ "/" ++ name ++ "?") <;> rfl

theorem mergeStatus_run (k : Resource α) (ns name : String) (patch : Json) :
    (k.mergeStatus ns name patch).run = match k.address ns name "/status?" with
    | .error e => .done (.error e)
    | .ok t => .send ⟨"PATCH", t, some "application/merge-patch+json", some json, some patch⟩
        fun x => .done (k.answer x) := by
  have hpath : k.path ns ++ "/" ++ name ++ "/status" ++ "?" = k.path ns ++ "/" ++ name ++ "/status?" :=
    String.append_assoc
  unfold mergeStatus objectPath address
  split
  · rfl
  · refine (k.mergeAt_run _ patch).trans ?_
    rw [hpath]
    cases Uri.parse (k.path ns ++ "/" ++ name ++ "/status?") <;> rfl

end Resource

theorem Api.done_run {α : Type} (t : Talk α) :
    (done t).run = Exchange.bind t.run fun r => .done (r.map fun _ => ()) := by
  unfold done
  rw [Talk.bind_run]
  show Exchange.bind _ _ = _
  congr 1
  funext r
  cases r <;> rfl

end SpinFleet
