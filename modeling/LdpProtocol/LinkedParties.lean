import LdpProtocol.InterferedRuns

/-!
# A program and the peer it talks to

A world holds the program's own state, the peer's state and the identifiers the
program has drawn so far. Other tasks may move the program's own state and other
parties the peer's; what the latter may do can depend on the drawn identifiers,
as when no one else uses them. `Moved` collects what such steps change, and
keeps the two kinds apart. Nothing here refers to a particular protocol.
-/
namespace LdpProtocol.LinkedParties
open InteractivePrograms InterferedRuns Relation

structure World (κ ι σ : Type) where
  client : κ
  peer : σ
  drawn : List ι

section
variable {κ ι σ : Type}

inductive Interference (tasks : κ → κ → Prop) (others : List ι → σ → σ → Prop) :
    World κ ι σ → World κ ι σ → Prop
  | task {w : World κ ι σ} {c : κ} : tasks w.client c →
      Interference tasks others w { w with client := c }
  | other {w : World κ ι σ} {p : σ} : others w.drawn w.peer p →
      Interference tasks others w { w with peer := p }

/-- A step of another party that respects at least the given identifiers. -/
def Respecting (others : List ι → σ → σ → Prop) (drawn : List ι) (s t : σ) : Prop :=
  ∃ d, drawn ⊆ d ∧ others d s t

theorem Respecting.mono {others : List ι → σ → σ → Prop} {d d' : List ι} (h : d ⊆ d') {s t : σ}
    (hst : ReflTransGen (Respecting others d') s t) : ReflTransGen (Respecting others d) s t := by
  apply hst.lift id
  intro s t hstep
  obtain ⟨e, he, hother⟩ := hstep
  exact ⟨e, List.Subset.trans h he, hother⟩

theorem Respecting.of_others {others : List ι → σ → σ → Prop} {d : List ι} {s t : σ}
    (h : ReflTransGen (others d) s t) : ReflTransGen (Respecting others d) s t :=
  h.lift id fun _ _ hst => ⟨d, fun _ hid => hid, hst⟩

/-- The client's state moved only through its other tasks and the peer's only
through other parties, and no identifier was given back. -/
structure Moved (tasks : κ → κ → Prop) (others : List ι → σ → σ → Prop)
    (w w' : World κ ι σ) : Prop where
  client : ReflTransGen tasks w.client w'.client
  peer : ReflTransGen (Respecting others w.drawn) w.peer w'.peer
  drawn : w.drawn ⊆ w'.drawn

variable {tasks : κ → κ → Prop} {others : List ι → σ → σ → Prop} {u v w : World κ ι σ}

theorem Moved.refl (w : World κ ι σ) : Moved tasks others w w where
  client := .refl
  peer := .refl
  drawn := fun _ h => h

theorem Moved.trans (h : Moved tasks others u v) (h' : Moved tasks others v w) :
    Moved tasks others u w where
  client := h.client.trans h'.client
  peer := h.peer.trans (Respecting.mono h.drawn h'.peer)
  drawn := List.Subset.trans h.drawn h'.drawn

theorem moved_of_interference (h : ReflTransGen (Interference tasks others) u v) :
    Moved tasks others u v := by
  induction h with
  | refl => exact .refl u
  | tail _ hstep ih =>
      apply ih.trans
      cases hstep with
      | task hc => exact ⟨.single hc, .refl, fun _ h => h⟩
      | other hp => exact ⟨.refl, .single ⟨_, fun _ h => h, hp⟩, fun _ h => h⟩

theorem moved_peer {p : σ} (h : ReflTransGen (others w.drawn) w.peer p) :
    Moved tasks others w { w with peer := p } where
  client := .refl
  peer := Respecting.of_others h
  drawn := fun _ hid => hid

/-- Drawing an identifier moves neither state. -/
theorem moved_draw (w : World κ ι σ) (id : ι) :
    Moved tasks others w { w with drawn := id :: w.drawn } where
  client := .refl
  peer := .refl
  drawn := List.subset_cons_self id w.drawn

section
variable {Q : Type} {A : Q → Type} {ε α : Type} {M : Meaning Q A (World κ ι σ)}
  {tr : List (Event Q A)} {r : Except ε α}

theorem moved_ask {q : Q} {next : A q → Program Q A ε α}
    (h : Run M (Interference tasks others) (.ask q next) u tr w r) :
    ∃ u₁ a v tr₁, Moved tasks others u u₁ ∧ M q u₁ a v ∧
      Run M (Interference tasks others) (next a) v tr₁ w r ∧ tr = ⟨q, a⟩ :: tr₁ := by
  obtain ⟨u₁, a, v, tr₁, hu, hm, hr, htr⟩ := run_ask.mp h
  exact ⟨u₁, a, v, tr₁, moved_of_interference hu, hm, hr, htr⟩

theorem moved_pure {a : α} (h : Run M (Interference tasks others) (.pure a) u tr w r) :
    Moved tasks others u w ∧ tr = [] ∧ r = .ok a := by
  obtain ⟨hu, htr, hr⟩ := run_pure.mp h
  exact ⟨moved_of_interference hu, htr, hr⟩

theorem moved_throw {e : ε} (h : Run M (Interference tasks others) (.throw e) u tr w r) :
    Moved tasks others u w ∧ tr = [] ∧ r = .error e := by
  obtain ⟨hu, htr, hr⟩ := run_throw.mp h
  exact ⟨moved_of_interference hu, htr, hr⟩

end

/-- What a request does: it is answered, or refused, or answered with something
that cannot be read. Where faults can occur, the request or its answer may also
get lost. -/
inductive Exchanged {Req Res Wire : Type} (write : Req → Wire) (read : Wire → Option Res)
    (serves : List ι → Wire → σ → Except String Wire → σ → Prop) (faulty : Prop) (drawn : List ι)
    (request : Req) : σ → Except String Res → σ → Prop
  | answered {s t : σ} {answer : Wire} {back : Res} :
      serves drawn (write request) s (.ok answer) t → read answer = some back →
      Exchanged write read serves faulty drawn request s (.ok back) t
  | refused {s t : σ} {error : String} (text : String) :
      serves drawn (write request) s (.error error) t →
      Exchanged write read serves faulty drawn request s (.error text) t
  | unreadable {s t : σ} {answer : Wire} (text : String) :
      serves drawn (write request) s (.ok answer) t → read answer = none →
      Exchanged write read serves faulty drawn request s (.error text) t
  | lost {s t : σ} {answer : Except String Wire} (text : String) : faulty →
      serves drawn (write request) s answer t →
      Exchanged write read serves faulty drawn request s (.error text) t
  | unsent {s : σ} (text : String) : faulty →
      Exchanged write read serves faulty drawn request s (.error text) s

/-- Whatever serving a request does to the peer, and doing nothing, relates the
peer's states before and after an exchange. -/
theorem Exchanged.relates {Req Res Wire : Type} {write : Req → Wire} {read : Wire → Option Res}
    {serves : List ι → Wire → σ → Except String Wire → σ → Prop} {faulty : Prop} {drawn : List ι}
    {request : Req} {s t : σ} {answer : Except String Res} {G : σ → σ → Prop}
    (h : Exchanged write read serves faulty drawn request s answer t) (hrefl : ∀ s, G s s)
    (hserves : ∀ s answer t, serves drawn (write request) s answer t → G s t) : G s t := by
  cases h with
  | answered hserved _ => exact hserves _ _ _ hserved
  | refused _ hserved => exact hserves _ _ _ hserved
  | unreadable _ hserved _ => exact hserves _ _ _ hserved
  | lost _ _ hserved => exact hserves _ _ _ hserved
  | unsent => exact hrefl s

/-- Without faults, a request that is always served with something readable is
answered. -/
theorem Exchanged.reliable {Req Res Wire : Type} {write : Req → Wire} {read : Wire → Option Res}
    {serves : List ι → Wire → σ → Except String Wire → σ → Prop} {drawn : List ι} {request : Req}
    {s t : σ} {answer : Except String Res} {G : Res → σ → Prop}
    (h : Exchanged write read serves False drawn request s answer t)
    (hserves : ∀ wire t, serves drawn (write request) s wire t →
      ∃ document back, wire = .ok document ∧ read document = some back ∧ G back t) :
    ∃ back, answer = .ok back ∧ G back t := by
  cases h with
  | answered hserved hread =>
      obtain ⟨document, back, hok, hback, hG⟩ := hserves _ _ hserved
      rw [Except.ok.inj hok, hback] at hread
      exact ⟨back, congrArg Except.ok (Option.some.inj hread).symm, hG⟩
  | refused _ hserved =>
      obtain ⟨document, back, hok, _⟩ := hserves _ _ hserved
      cases hok
  | unreadable _ hserved hread =>
      obtain ⟨document, back, hok, hback, _⟩ := hserves _ _ hserved
      rw [Except.ok.inj hok, hback] at hread
      cases hread
  | lost _ hfaulty => exact hfaulty.elim
  | unsent _ hfaulty => exact hfaulty.elim

end
end LdpProtocol.LinkedParties
