import SpinFleet.Proofs.Frames
import SpinFleet.Proofs.Requests
/-!
# Dialogues — what is said while `Secret`s are pruned, whatever the server answers

`Exchange.Dialogue p d o` is an exchange without a server: the exchange `p` made the requests of `d`, got the responses
that stand beside them, and came to the result `o`, or to none if it was cut.  Nothing is known of the responses, so
what is proved of dialogues holds of every server.  A run on a server is a dialogue that this server has hosted
(`Exchange.Run.dialogue`).

Pruning asks for the `Secret`s of an app and then for the deletion of one stale `Secret` after the other.  A response
*settles* a deletion if it says that it was done, or that there was nothing to delete.  `Api.Deletions` goes through the
list as the operator does, and `Api.Deletes` says what comes of it: a first part of the list, in order, all of it
settled but for the last, which decides how it ends.
-/
namespace SpinFleet

namespace Exchange

variable {α β : Type}

/-- What is said in an exchange, and its result, none if it was cut. -/
inductive Dialogue : Exchange α → List (Request × Response) → Option α → Prop
  | cut {p} : Dialogue p [] none
  | done {a} : Dialogue (.done a) [] (some a)
  | send {r next x d o} (h : Dialogue (next x) d o) : Dialogue (.send r next) ((r, x) :: d) o

namespace Dialogue

variable {d : List (Request × Response)} {o : Option α} {p : Exchange α}

theorem of_done {a : α} (h : (Exchange.done a).Dialogue d o) : d = [] ∧ (o = none ∨ o = some a) := by
  cases h with
  | cut => exact ⟨rfl, .inl rfl⟩
  | done => exact ⟨rfl, .inr rfl⟩

theorem of_map {g : α → β} {o : Option β} (h : (p.bind fun a => .done (g a)).Dialogue d o) :
    ∃ o', p.Dialogue d o' ∧ o = o'.map g := by
  generalize hq : (p.bind fun a => .done (g a)) = q at h
  induction h generalizing p with
  | cut => exact ⟨none, .cut, rfl⟩
  | done =>
    cases p with
    | done a =>
      cases hq
      exact ⟨some a, .done, rfl⟩
    | send => cases hq
  | send _ ih =>
    cases p with
    | done => cases hq
    | send r next =>
      cases hq
      obtain ⟨o', h, ho⟩ := ih rfl
      exact ⟨o', .send h, ho⟩

end Dialogue

end Exchange

/-! ## Servers -/

variable {σ ε : Type} {S : Server σ ε}

/-- A server hosts a dialogue, and others edit in between. -/
inductive Server.Hosts (S : Server σ ε) : σ → List (Request × Response) → List ε → σ → Prop
  | nil (s) : S.Hosts s [] [] s
  | serve {s s₁ s' r x d xs} (h : S.serves s r x s₁) (hs : S.Hosts s₁ d xs s') : S.Hosts s ((r, x) :: d) xs s'
  | edit {s s₁ s' x d xs} (h : S.edits s x s₁) (hs : S.Hosts s₁ d xs s') : S.Hosts s d (x :: xs) s'

def Turn.edit? : Turn ε → Option ε
  | .request _ => none
  | .edit x => some x

def Turn.edits (t : List (Turn ε)) : List ε := t.filterMap Turn.edit?

/-- **A run is a dialogue that the server has hosted.** -/
theorem Exchange.Run.dialogue {α : Type} {p : Exchange α} {s s' : σ} {t : List (Turn ε)} {o : Option α}
    (h : Run S p s t s' o) : ∃ d, p.Dialogue d o ∧ S.Hosts s d (Turn.edits t) s' := by
  induction h with
  | cut => exact ⟨[], .cut, .nil _⟩
  | done => exact ⟨[], .done, .nil _⟩
  | send h _ ih =>
    obtain ⟨d, hd, hs⟩ := ih
    exact ⟨_, .send hd, .serve h hs⟩
  | edit h _ ih =>
    obtain ⟨d, hd, hs⟩ := ih
    exact ⟨d, hd, .edit h hs⟩

theorem Exchange.Run.map {α β : Type} {p : Exchange α} {s s' : σ} {t : List (Turn ε)} {o : Option α} (g : α → β)
    (h : Run S p s t s' o) : Run S (p.bind fun a => .done (g a)) s t s' (o.map g) := by
  induction h with
  | cut => exact .cut
  | done => exact .done
  | send h _ ih => exact .send h ih
  | edit h _ ih => exact .edit h ih

namespace Server.Hosts

variable {s s' : σ} {d : List (Request × Response)} {xs : List ε}

theorem of_nil (h : S.Hosts s [] xs s') : S.Edited s xs s' := by
  generalize hd : ([] : List (Request × Response)) = d at h
  induction h with
  | nil => exact .nil _
  | serve => cases hd
  | edit hx _ ih => exact .cons hx (ih hd)

theorem of_cons {r : Request} {x : Response} (h : S.Hosts s ((r, x) :: d) xs s') :
    ∃ ys zs s₁ s₂, xs = ys ++ zs ∧ S.Edited s ys s₁ ∧ S.serves s₁ r x s₂ ∧ S.Hosts s₂ d zs s' := by
  generalize hc : (r, x) :: d = c at h
  induction h with
  | nil => cases hc
  | serve hx hs =>
    cases hc
    exact ⟨[], _, _, _, rfl, .nil _, hx, hs⟩
  | edit hx _ ih =>
    obtain ⟨ys, zs, s₁, s₂, rfl, hys, hserve, hs⟩ := ih hc
    exact ⟨_ :: ys, zs, s₁, s₂, rfl, .cons hx hys, hserve, hs⟩

end Server.Hosts

/-! ## Lists and deletions -/

theorem Talk.request_bind_run {β : Type} (r : Request) (f : String → Talk β) :
    (Talk.request r >>= f).run = .send r fun x =>
      if x.isRefusal then .done (.error (.refused (.ofResponse x))) else (f x.text).run := by
  rw [Talk.bind_run]
  show Exchange.send _ _ = _
  congr 1
  funext x
  show Exchange.bind (.done (if x.isRefusal then _ else _)) _ = _
  by_cases hx : x.isRefusal
  · rw [if_pos hx, if_pos hx]
    rfl
  · rw [if_neg hx, if_neg hx]
    rfl

def Talk.decoded {β : Type} (c : Codec β) (text : String) : Except ApiError β :=
  match c.decodeText text with
  | .ok b => .ok b
  | .error e => .error (.badAnswer e.text)

theorem Talk.decode_run {β : Type} (c : Codec β) (text : String) :
    (Talk.decode c text).run = .done (Talk.decoded c text) := by
  unfold Talk.decode Talk.decoded
  cases c.decodeText text <;> rfl

namespace Resource

variable {α : Type}

def listAddress (k : Resource α) (ns : String) (label : String × String) : Except ApiError Uri.Target :=
  match Uri.parse (k.path ns ++ "?" ++ ("&labelSelector=" ++ Uri.encode (label.1 ++ "=" ++ label.2))) with
  | .ok t => .ok t
  | .error f => .error (.badRequest ("failed to build request: " ++ f.message))

def listing (k : Resource α) (ns : String) (label : String × String) : Except ApiError Request :=
  (k.listAddress ns label).map fun t => ⟨"GET", t, none, none, none⟩

def listed (k : Resource α) (x : Response) : Except ApiError (List α) :=
  if x.isRefusal then .error (.refused (.ofResponse x))
  else Talk.decoded k.listCodec x.text

def deletion (k : Resource α) (ns name : String) : Except ApiError Request :=
  (k.address ns name "?").map fun t => ⟨"DELETE", t, some json, none, some (.object [])⟩

def deletedText (k : Resource α) (text : String) : Except ApiError Unit :=
  match Talk.decoded (Codec.kept Codec.maxLevels) text with
  | .error e => .error e
  | .ok j =>
    if (j.member? "kind" >>= Json.string?) = some "Status" then Talk.decoded statusRecord.strict text
    else (Talk.decoded k.codec text).map fun _ => ()

def deleted (k : Resource α) (x : Response) : Except ApiError Unit :=
  if x.isRefusal then .error (.refused (.ofResponse x)) else k.deletedText x.text

/-- A deletion is settled: it was done, or there was nothing to delete. -/
def Settled (k : Resource α) (x : Response) : Prop :=
  k.deleted x = .ok () ∨ ∃ e, k.deleted x = .error e ∧ e.isNotFound = true

/-- **Reading a list** is one request. -/
theorem list_run (k : Resource α) (ns : String) (label : String × String) :
    (k.list ns (some label)).run = match k.listing ns label with
      | .error e => .done (.error e)
      | .ok r => .send r fun x => .done (k.listed x) := by
  unfold list listing listAddress target
  dsimp only
  cases Uri.parse (k.path ns ++ "?" ++ ("&labelSelector=" ++ Uri.encode (label.1 ++ "=" ++ label.2))) with
  | error f => rfl
  | ok t =>
    refine (Talk.request_bind_run _ _).trans (congrArg (Exchange.send _) (funext fun x => ?_))
    unfold listed
    rw [Talk.decode_run]
    split <;> rfl

def readDeleted (k : Resource α) (text : String) : Talk Unit := do
  let j ← Talk.decode (Codec.kept Codec.maxLevels) text
  if (j.member? "kind" >>= Json.string?) = some "Status" then
    Talk.decode statusRecord.strict text
  else
    let _ ← Talk.decode k.codec text
    return ()

theorem readDeleted_run (k : Resource α) (text : String) : (k.readDeleted text).run = .done (k.deletedText text) := by
  unfold readDeleted deletedText
  rw [Talk.bind_run, Talk.decode_run]
  cases Talk.decoded (Codec.kept Codec.maxLevels) text with
  | error e => rfl
  | ok j =>
    show ExceptT.run (if _ then _ else _) = _
    dsimp only
    split
    · rw [Talk.decode_run]
    · rw [Talk.bind_run, Talk.decode_run]
      cases Talk.decoded k.codec text <;> rfl

/-- **Deleting an object** is one request. -/
theorem delete_run (k : Resource α) (ns name : String) :
    (k.delete ns name).run = match k.deletion ns name with
      | .error e => .done (.error e)
      | .ok r => .send r fun x => .done (k.deleted x) := by
  have hdelete : k.delete ns name = k.objectPath ns name >>= fun path => target (path ++ "?") >>= fun t =>
      Talk.request ⟨"DELETE", t, some json, none, some (.object [])⟩ >>= k.readDeleted := rfl
  rw [hdelete]
  unfold deletion objectPath address
  split
  · rfl
  · show ExceptT.run (target (k.path ns ++ "/" ++ name ++ "?") >>= _) = _
    unfold target
    cases Uri.parse (k.path ns ++ "/" ++ name ++ "?") with
    | error f => rfl
    | ok t =>
      refine (Talk.request_bind_run _ _).trans (congrArg (Exchange.send _) (funext fun x => ?_))
      unfold deleted
      rw [readDeleted_run]
      split <;> rfl

/-- What a response says to a deletion that need not find anything. -/
def deleted? (k : Resource α) (x : Response) : Except ApiError Unit :=
  match k.deleted x with
  | .ok _ => .ok ()
  | .error e => if e.isNotFound then .ok () else .error e

theorem deleted?_cases (k : Resource α) (x : Response) :
    (k.Settled x ∧ k.deleted? x = .ok ()) ∨
    ∃ e, k.deleted x = .error e ∧ e.isNotFound = false ∧ k.deleted? x = .error e := by
  unfold Settled deleted?
  cases k.deleted x with
  | ok => exact .inl ⟨.inl rfl, rfl⟩
  | error e =>
    cases he : e.isNotFound with
    | true => exact .inl ⟨.inr ⟨e, rfl, he⟩, by simp [he]⟩
    | false => exact .inr ⟨e, rfl, he, by simp [he]⟩

theorem deletion_isNotFound {k : Resource α} {ns name : String} {e : ApiError} (h : k.deletion ns name = .error e) :
    e.isNotFound = false := by
  unfold deletion at h
  cases ha : k.address ns name "?" with
  | ok t =>
    rw [ha] at h
    cases h
  | error e' =>
    rw [ha] at h
    cases h
    exact address_isNotFound ha

theorem delete?_run (k : Resource α) (ns name : String) :
    (k.delete? ns name).run = match k.deletion ns name with
      | .error e => .done (.error e)
      | .ok r => .send r fun x => .done (k.deleted? x) := by
  have hdelete := k.delete_run ns name
  unfold delete?
  generalize k.delete ns name = p at hdelete ⊢
  cases hd : k.deletion ns name with
  | error e =>
    rw [hd] at hdelete
    obtain rfl : p = ExceptT.mk (.done (.error e)) := hdelete
    show Exchange.bind (ExceptT.run (ExceptT.mk (if e.isNotFound then _ else _))) _ = _
    rw [deletion_isNotFound hd]
    rfl
  | ok r =>
    rw [hd] at hdelete
    obtain rfl : p = ExceptT.mk (.send r fun x => .done (k.deleted x)) := hdelete
    show Exchange.send _ _ = _
    congr 1
    funext x
    unfold deleted?
    dsimp only
    cases k.deleted x with
    | ok => rfl
    | error e =>
      show Exchange.bind (ExceptT.run (if e.isNotFound then _ else _)) _ =
        Exchange.done (if e.isNotFound then Except.ok () else Except.error e)
      cases e.isNotFound <;> rfl

end Resource

/-! ## Pruning -/

namespace Api

/-- How `Secret`s are deleted one after the other: what is not there counts as deleted, and the first other failure ends
it. -/
inductive Deletions (ns : String) : List String → List (Request × Response) → Option (Except ApiError Unit) → Prop
  | cut {names} : Deletions ns names [] none
  | done : Deletions ns [] [] (some (.ok ()))
  | next {n names r x d o} (hr : secrets.deletion ns n = .ok r) (hx : secrets.Settled x) (h : Deletions ns names d o) :
      Deletions ns (n :: names) ((r, x) :: d) o
  | failed {n names r x e o} (hr : secrets.deletion ns n = .ok r) (hx : secrets.deleted x = .error e)
      (he : e.isNotFound = false) (ho : o = none ∨ o = some (.error e)) : Deletions ns (n :: names) [(r, x)] o
  /-- There is no address for this name. -/
  | nowhere {n names e} (hr : secrets.deletion ns n = .error e) : Deletions ns (n :: names) [] (some (.error e))

/-- What comes of deleting stale `Secret`s one after the other. -/
structure Deletes (ns : String) (stale : List String) (d : List (Request × Response))
    (o : Option (Except ApiError Unit)) : Prop where
  /-- A first part of the list is asked for, in its order, and nothing else. -/
  asked : ∃ names, names <+: stale ∧ names.map (secrets.deletion ns) = d.map fun p => .ok p.1
  /-- It goes on only after a deletion that is settled. -/
  settled : ∀ p ∈ d.dropLast, secrets.Settled p.2
  /-- It succeeds only at the end of the list, if all is settled. -/
  ok : o = some (.ok ()) →
    stale.map (secrets.deletion ns) = d.map (fun p => .ok p.1) ∧ ∀ p ∈ d, secrets.Settled p.2
  /-- A failure other than that nothing was found is what it fails with. -/
  fails : ∀ p e, d.getLast? = some p → secrets.deleted p.2 = .error e → e.isNotFound = false →
    o = none ∨ o = some (.error e)
  /-- It fails with nothing else, unless there is no address for the next name. -/
  failure : ∀ e, o = some (.error e) → e.isNotFound = false ∧
    ((∃ p, d.getLast? = some p ∧ secrets.deleted p.2 = .error e) ∨
      ∃ n, stale[d.length]? = some n ∧ secrets.deletion ns n = .error e)

/-- What comes of pruning: it asks for the `Secret`s with the app's label, and if it is told of some it deletes those of
them that are stale.  How it deletes them is left open. -/
inductive Prunes (D : List String → List (Request × Response) → Option (Except ApiError Unit) → Prop) (app ns : String)
    (keep : Option String) : List (Request × Response) → Option (Except ApiError Unit) → Prop
  | cut : Prunes D app ns keep [] none
  /-- There is no address for the list. -/
  | nowhere {e} (hr : secrets.listing ns (nameLabel, app) = .error e) : Prunes D app ns keep [] (some (.error e))
  | unlisted {r x e o} (hr : secrets.listing ns (nameLabel, app) = .ok r) (hx : secrets.listed x = .error e)
      (ho : o = none ∨ o = some (.error e)) : Prunes D app ns keep [(r, x)] o
  | listed {r x found d o} (hr : secrets.listing ns (nameLabel, app) = .ok r) (hx : secrets.listed x = .ok found)
      (hd : D (staleSecrets app found keep) d o) : Prunes D app ns keep ((r, x) :: d) o

variable {app ns : String} {keep : Option String} {names : List String} {d : List (Request × Response)}

theorem deleteSecrets_run (ns n : String) (names : List String) :
    (deleteSecrets ns (n :: names)).run = match secrets.deletion ns n with
      | .error e => .done (.error e)
      | .ok r => .send r fun x => match secrets.deleted? x with
        | .ok _ => (deleteSecrets ns names).run
        | .error e => .done (.error e) := by
  rw [deleteSecrets, Talk.bind_run, secrets.delete?_run]
  cases secrets.deletion ns n with
  | error e => rfl
  | ok r =>
    show Exchange.send _ _ = Exchange.send _ _
    congr 1
    funext x
    show Exchange.bind (.done (secrets.deleted? x)) _ = _
    cases secrets.deleted? x <;> rfl

/-- **Every dialogue about deletions goes so**, whatever the responses. -/
theorem deleteSecrets_dialogue {o : Option (Except ApiError Unit)} (h : (deleteSecrets ns names).run.Dialogue d o) :
    Deletions ns names d o := by
  induction names generalizing d o with
  | nil =>
    obtain ⟨rfl, rfl | rfl⟩ := h.of_done
    · exact .cut
    · exact .done
  | cons n names ih =>
    rw [deleteSecrets_run] at h
    cases hr : secrets.deletion ns n with
    | error e =>
      rw [hr] at h
      obtain ⟨rfl, rfl | rfl⟩ := h.of_done
      · exact .cut
      · exact .nowhere hr
    | ok r =>
      rw [hr] at h
      cases h with
      | cut => exact .cut
      | @send _ _ x d _ h =>
        dsimp only at h
        rcases secrets.deleted?_cases x with ⟨hx, hok⟩ | ⟨e, hx, he, herr⟩
        · rw [hok] at h
          exact .next hr hx (ih h)
        · rw [herr] at h
          obtain ⟨rfl, ho⟩ := h.of_done
          exact .failed hr hx he ho

theorem not_settled {x : Response} {e : ApiError} (hx : secrets.deleted x = .error e) (he : e.isNotFound = false) :
    ¬ secrets.Settled x := by
  rintro (h | ⟨e', h, he'⟩)
  · cases hx.symm.trans h
  · cases hx.symm.trans h
    cases he.symm.trans he'

theorem Deletions.deletes {o : Option (Except ApiError Unit)} (h : Deletions ns names d o) : Deletes ns names d o := by
  induction h with
  | cut => exact ⟨⟨[], List.nil_prefix, rfl⟩, nofun, nofun, nofun, nofun⟩
  | done => exact ⟨⟨[], List.nil_prefix, rfl⟩, nofun, fun _ => ⟨rfl, nofun⟩, nofun, nofun⟩
  | nowhere hr =>
    refine ⟨⟨[], List.nil_prefix, rfl⟩, nofun, nofun, nofun, fun e he => ?_⟩
    cases he
    exact ⟨Resource.deletion_isNotFound hr, .inr ⟨_, rfl, hr⟩⟩
  | @failed n names r x e o hr hx he ho =>
    refine ⟨⟨[n], List.prefix_cons_iff.2 (.inr ⟨[], rfl, List.nil_prefix⟩), ?_⟩, nofun, ?_, ?_, ?_⟩
    · rw [List.map_singleton, hr]
      rfl
    · rintro rfl
      rcases ho with ho | ho <;> cases ho
    · rintro p e' ⟨⟩ hx' -
      cases hx.symm.trans hx'
      exact ho
    · rintro e' rfl
      rcases ho with ho | ho <;> cases ho
      exact ⟨he, .inl ⟨_, rfl, hx⟩⟩
  | @next n names r x d o hr hx _ ih =>
    obtain ⟨asked, hasked, hmap⟩ := ih.asked
    refine ⟨⟨n :: asked, List.cons_prefix_cons.2 ⟨rfl, hasked⟩, ?_⟩, fun p hp => ?_, fun ho => ?_, ?_, ?_⟩
    · rw [List.map_cons, List.map_cons, hr, hmap]
    · cases d with
      | nil => cases hp
      | cons q d =>
        rcases List.mem_cons.1 hp with rfl | hp
        · exact hx
        · exact ih.settled p hp
    · obtain ⟨hall, hsettled⟩ := ih.ok ho
      exact ⟨by rw [List.map_cons, List.map_cons, hr, hall], List.forall_mem_cons.2 ⟨hx, hsettled⟩⟩
    · intro p e hp herr he
      cases d with
      | nil =>
        cases hp
        exact (not_settled herr he hx).elim
      | cons q d => exact ih.fails p e (by rwa [List.getLast?_cons_cons] at hp) herr he
    · intro e he
      obtain ⟨hnf, ⟨p, hp, herr⟩ | ⟨m, hm, herr⟩⟩ := ih.failure e he
      · refine ⟨hnf, .inl ⟨p, ?_, herr⟩⟩
        rw [List.getLast?_cons, hp]
        rfl
      · exact ⟨hnf, .inr ⟨m, hm, herr⟩⟩

theorem prune_run (app ns : String) (keep : Option String) :
    (talk (.pruneSecrets app ns keep)).run = match secrets.listing ns (nameLabel, app) with
      | .error e => .done (.error e)
      | .ok r => .send r fun x => match secrets.listed x with
        | .ok found => (deleteSecrets ns (staleSecrets app found keep)).run
        | .error e => .done (.error e) := by
  rw [talk, Talk.bind_run, secrets.list_run]
  cases secrets.listing ns (nameLabel, app) with
  | error e => rfl
  | ok r =>
    show Exchange.send _ _ = Exchange.send _ _
    congr 1
    funext x
    show Exchange.bind (.done (secrets.listed x)) _ = _
    cases secrets.listed x <;> rfl

/-- **Every dialogue about pruning goes so**, whatever the responses. -/
theorem prune_dialogue {o : Option (Except ApiError Unit)}
    (h : (talk (.pruneSecrets app ns keep)).run.Dialogue d o) : Prunes (Deletions ns) app ns keep d o := by
  rw [prune_run] at h
  cases hr : secrets.listing ns (nameLabel, app) with
  | error e =>
    rw [hr] at h
    obtain ⟨rfl, rfl | rfl⟩ := h.of_done
    · exact .cut
    · exact .nowhere hr
  | ok r =>
    rw [hr] at h
    cases h with
    | cut => exact .cut
    | @send _ _ x d _ h =>
      dsimp only at h
      cases hx : secrets.listed x with
      | error e =>
        rw [hx] at h
        obtain ⟨rfl, ho⟩ := h.of_done
        exact .unlisted hr hx ho
      | ok found =>
        rw [hx] at h
        exact .listed hr hx (deleteSecrets_dialogue h)

theorem perform_eq (c : Call) : perform c = (talk c).run.bind fun r => .done (r.mapError Error.kube) := by
  show Exchange.bind _ _ = _
  congr 1
  funext r
  cases r <;> rfl

theorem perform_dialogue {c : Call} {o : Option (Except Error c.Answer)} (h : (perform c).Dialogue d o) :
    ∃ o', (talk c).run.Dialogue d o' ∧ o = o'.map (Except.mapError Error.kube) := by
  rw [perform_eq] at h
  exact h.of_map

end Api

end SpinFleet
