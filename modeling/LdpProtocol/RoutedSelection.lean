import LdpProtocol.PythonRouter
import LdpProtocol.StableSelection

/-!
# What the router selects

The candidates are sorted by keys, and if these are numbers the choice is the
first candidate that no other has to come before. For quality, cost and latency
this is the first discovered among the best. Only the order of the keys matters: a
card with an infinite score or cost is chosen as one with a rational beyond all the
others would be, and an infinite cost is one that is not reported.
-/
namespace LdpProtocol.RoutedSelection
open JsonValues PythonIdentity ExactFloats InsertionOrderedMaps StableSelection PythonRouter

section Sorting
variable {skill : String} {strategy : RoutingStrategy} {key : LdpIdentityCard → ExactFloat}
  {cards : List LdpIdentityCard} {delegates : Delegates} {trustDomain : Option String}

theorem mapM_keyed (h : ∀ card ∈ cards, sortKey skill strategy card = .ok (key card)) :
    cards.mapM (keyed skill strategy) = .ok (cards.map fun card => (key card, card)) := by
  induction cards with
  | nil => rfl
  | cons card cards ih =>
      obtain ⟨hcard, hcards⟩ := List.forall_mem_cons.mp h
      rw [List.mapM_cons, ih hcards, keyed, hcard]
      rfl

/-- One key that cannot be computed is raised for all. -/
theorem mapM_keyed_raises {card : LdpIdentityCard} (hmem : card ∈ cards)
    (h : sortKey skill strategy card = .error .zeroDivision) :
    cards.mapM (keyed skill strategy) = .error .zeroDivision := by
  induction cards with
  | nil => cases hmem
  | cons first cards ih =>
      rw [List.mapM_cons]
      rcases List.mem_cons.mp hmem with rfl | hmem
      · rw [keyed, h]
        rfl
      · rw [ih hmem, keyed]
        cases sortKey skill strategy first with
        | ok key => rfl
        | error e => rfl

theorem mapM_keyed_snd {found : List (ExactFloat × LdpIdentityCard)}
    (h : cards.mapM (keyed skill strategy) = .ok found) : found.map Prod.snd = cards := by
  induction cards generalizing found with
  | nil =>
      cases h
      rfl
  | cons card cards ih =>
      rw [List.mapM_cons, keyed] at h
      cases hkey : sortKey skill strategy card with
      | error e =>
          rw [hkey] at h
          cases h
      | ok key =>
          rw [hkey] at h
          cases hrest : cards.mapM (keyed skill strategy) with
          | error e =>
              rw [hrest] at h
              cases h
          | ok rest =>
              rw [hrest] at h
              cases h
              exact congrArg (List.cons card) (ih hrest)

/-- Whatever is chosen is one of the candidates. -/
theorem select_mem {best : LdpIdentityCard}
    (h : select delegates skill strategy trustDomain = .ok (some best)) :
    best ∈ candidates delegates skill trustDomain := by
  unfold select at h
  cases hfound : (candidates delegates skill trustDomain).mapM (keyed skill strategy) with
  | error e =>
      rw [hfound] at h
      cases h
  | ok found =>
      rw [hfound] at h
      obtain ⟨entry, hentry, rfl⟩ := Option.map_eq_some_iff.mp (Except.ok.inj h)
      have hmem : entry ∈ found :=
        (List.perm_insertionSort _ found).mem_iff.mp (List.mem_of_mem_head? hentry)
      rw [← mapM_keyed_snd hfound]
      exact List.mem_map_of_mem hmem

/-- Numbers are ordered by a rank; the higher come first in a reversed sort. -/
theorem comesBefore_iff (x y : ExactFloat) (hx : x ≠ .nan) (hy : y ≠ .nan) :
    (comesBefore false x y = true ↔ x.place < y.place) ∧
    (comesBefore true x y = true ↔ OrderDual.toDual x.place < OrderDual.toDual y.place) :=
  ⟨ExactFloat.lt_iff hx hy, ExactFloat.lt_iff hy hx⟩

theorem head_sorted {κ : Type} [LinearOrder κ] {rank : ExactFloat → κ} {reverse : Bool}
    (hrank : ∀ x y, x ≠ .nan → y ≠ .nan → (comesBefore reverse x y = true ↔ rank x < rank y))
    (hnan : ∀ card ∈ cards, key card ≠ .nan) (hne : cards ≠ []) :
    ∃ before best after, cards = before ++ best :: after ∧
      (sorted reverse (cards.map fun card => (key card, card))).head? = some (key best, best) ∧
      (∀ card ∈ before, comesBefore reverse (key best) (key card) = true) ∧
      ∀ card ∈ after, comesBefore reverse (key card) (key best) = false := by
  let value : ExactFloat × LdpIdentityCard → κ := fun entry => rank entry.1
  have horder : ∀ a ∈ cards.map (fun card => (key card, card)),
      ∀ b ∈ cards.map (fun card => (key card, card)),
      comesBefore reverse b.1 a.1 = false ↔ value a ≤ value b := by
    intro a ha b hb
    obtain ⟨first, hfirst, rfl⟩ := List.mem_map.mp ha
    obtain ⟨second, hsecond, rfl⟩ := List.mem_map.mp hb
    rw [← not_lt, ← hrank _ _ (hnan second hsecond) (hnan first hfirst), Bool.not_eq_true]
  have hhead := head?_insertionSort _ _ horder
  cases hleast : (cards.map fun card => (key card, card)).argmin value with
  | none =>
      have hnil := List.argmin_eq_none.mp hleast
      exact (hne (List.map_eq_nil_iff.mp hnil)).elim
  | some least =>
      obtain ⟨front, back, hsplit, hfront, hback⟩ := argmin_split hleast
      obtain ⟨before, rest, hcards, hbefore, hrest⟩ := List.map_eq_append_iff.mp hsplit
      obtain ⟨best, after, hcons, hbest, hafter⟩ := List.map_eq_cons_iff.mp hrest
      subst hcons hcards hbest hbefore hafter
      refine ⟨before, best, after, rfl, hhead.trans hleast, ?_, ?_⟩
      · intro card hcard
        rw [hrank _ _ (hnan best (by simp)) (hnan card (by simp [hcard]))]
        exact hfront _ (List.mem_map_of_mem hcard)
      · intro card hcard
        rw [← Bool.not_eq_true, hrank _ _ (hnan card (by simp [hcard])) (hnan best (by simp)),
          not_lt]
        exact hback _ (List.mem_map_of_mem hcard)

/-- With a number for every candidate, the choice is the first of those that no
other has to come before. -/
theorem select_split
    (hkey : ∀ card ∈ candidates delegates skill trustDomain,
      sortKey skill strategy card = .ok (key card))
    (hnan : ∀ card ∈ candidates delegates skill trustDomain, key card ≠ .nan)
    (hne : candidates delegates skill trustDomain ≠ []) :
    ∃ before best after, candidates delegates skill trustDomain = before ++ best :: after ∧
      select delegates skill strategy trustDomain = .ok (some best) ∧
      (∀ card ∈ before, comesBefore strategy.reverse (key best) (key card) = true) ∧
      ∀ card ∈ after, comesBefore strategy.reverse (key card) (key best) = false := by
  have hhead : ∃ before best after,
      candidates delegates skill trustDomain = before ++ best :: after ∧
      (sorted strategy.reverse ((candidates delegates skill trustDomain).map
        fun card => (key card, card))).head? = some (key best, best) ∧
      (∀ card ∈ before, comesBefore strategy.reverse (key best) (key card) = true) ∧
      ∀ card ∈ after, comesBefore strategy.reverse (key card) (key best) = false := by
    cases strategy.reverse with
    | false => exact head_sorted (fun x y hx hy => (comesBefore_iff x y hx hy).1) hnan hne
    | true => exact head_sorted (fun x y hx hy => (comesBefore_iff x y hx hy).2) hnan hne
  obtain ⟨before, best, after, hsplit, hbest, hbefore, hafter⟩ := hhead
  refine ⟨before, best, after, hsplit, ?_, hbefore, hafter⟩
  unfold select
  rw [mapM_keyed hkey]
  exact congrArg (fun head => Except.ok (head.map Prod.snd)) hbest

theorem select_none (h : candidates delegates skill trustDomain = []) :
    select delegates skill strategy trustDomain = .ok none := by
  unfold select
  rw [h]
  rfl

end Sorting

/-! ## Quality, cost and latency -/

/-- The card has the skill and is in the domain that is asked for. -/
def Supports (skill : String) (trustDomain : Option String) (card : LdpIdentityCard) : Prop :=
  (∃ cap ∈ card.capabilities, cap.name = skill) ∧
    ∀ domain, trustDomain = some domain → card.trustDomain.name = domain

/-- The first card is strictly better than the second. -/
def Better (skill : String) : RoutingStrategy → LdpIdentityCard → LdpIdentityCard → Prop
  | .quality, a, b => b.qualityScore skill < a.qualityScore skill
  | .cost, a, b => (a.cost skill).lt (b.cost skill) = true
  | .latency, a, b => a.latency skill < b.latency skill
  | .balanced, a, b => ∃ s t, balancedScore skill a = .ok s ∧ balancedScore skill b = .ok t ∧
      t.lt s = true

section Optimal
variable {skill : String} {strategy : RoutingStrategy} {delegates : Delegates}
  {trustDomain : Option String}

theorem capability_isSome_iff (card : LdpIdentityCard) :
    (card.capability skill).isSome = true ↔ ∃ cap ∈ card.capabilities, cap.name = skill := by
  simp [LdpIdentityCard.capability, List.find?_isSome]

theorem inDomain_iff (hd : trustDomain ≠ some "") (card : LdpIdentityCard) :
    inDomain trustDomain card = true ↔
      ∀ domain, trustDomain = some domain → card.trustDomain.name = domain := by
  unfold inDomain
  cases trustDomain with
  | none => simp
  | some domain =>
      have hne : domain ≠ "" := fun heq => hd (congrArg some heq)
      simp [hne]

theorem isCandidate_iff (hd : trustDomain ≠ some "") (card : LdpIdentityCard) :
    ((card.capability skill).isSome && inDomain trustDomain card) = true ↔
      Supports skill trustDomain card := by
  rw [Bool.and_eq_true, capability_isSome_iff, inDomain_iff hd, Supports]

theorem mem_candidates_iff (hd : trustDomain ≠ some "") {card : LdpIdentityCard} :
    card ∈ candidates delegates skill trustDomain ↔
      card ∈ delegates.values ∧ Supports skill trustDomain card := by
  rw [candidates, List.mem_filter, isCandidate_iff hd]

theorem cost_ne_nan (card : LdpIdentityCard) : card.cost skill ≠ .nan := by
  unfold LdpIdentityCard.cost
  split
  · simp
  · simp

/-- The keys are numbers, and the better card has the key that comes first. -/
theorem exists_key (skill : String) (hs : strategy ≠ .balanced) :
    ∃ key : LdpIdentityCard → ExactFloat, ∀ card,
      sortKey skill strategy card = .ok (key card) ∧ key card ≠ .nan ∧
      ∀ other, comesBefore strategy.reverse (key card) (key other) = true ↔
        Better skill strategy card other := by
  cases strategy with
  | quality =>
      refine ⟨fun card => (ExactFloat.finite (card.qualityScore skill)).neg, ?_⟩
      intro card
      refine ⟨rfl, by simp [ExactFloat.neg], ?_⟩
      intro other
      simp [comesBefore, RoutingStrategy.reverse, ExactFloat.neg, Better]
  | cost => exact ⟨fun card => card.cost skill, fun card =>
      ⟨rfl, cost_ne_nan card, fun other => Iff.rfl⟩⟩
  | latency =>
      refine ⟨fun card => .finite (card.latency skill), ?_⟩
      intro card
      refine ⟨rfl, by simp, ?_⟩
      intro other
      simp [comesBefore, RoutingStrategy.reverse, Better]
  | balanced => exact (hs rfl).elim

/-- The strategies other than the balanced one order the cards. -/
theorem Better.asymm (hs : strategy ≠ .balanced) {a b : LdpIdentityCard}
    (h : Better skill strategy a b) : ¬ Better skill strategy b a := by
  cases strategy with
  | quality => exact not_lt.mpr (le_of_lt h)
  | cost =>
      intro hba
      have hab := (ExactFloat.lt_iff (cost_ne_nan a) (cost_ne_nan b)).mp h
      exact lt_asymm hab ((ExactFloat.lt_iff (cost_ne_nan b) (cost_ne_nan a)).mp hba)
  | latency => exact not_lt.mpr (le_of_lt h)
  | balanced => exact (hs rfl).elim

/-- What it means to choose the first of the best. -/
structure FirstBest (delegates : Delegates) (skill : String) (strategy : RoutingStrategy)
    (trustDomain : Option String) (best : LdpIdentityCard) : Prop where
  supports : Supports skill trustDomain best
  optimal : ∀ card ∈ delegates.values, Supports skill trustDomain card →
    ¬ Better skill strategy card best
  first : ∃ before after, delegates.values = before ++ best :: after ∧
    ∀ card ∈ before, Supports skill trustDomain card → Better skill strategy best card

theorem select_firstBest (hs : strategy ≠ .balanced) (hd : trustDomain ≠ some "")
    (hne : candidates delegates skill trustDomain ≠ []) :
    ∃ best, select delegates skill strategy trustDomain = .ok (some best) ∧
      FirstBest delegates skill strategy trustDomain best := by
  obtain ⟨key, hkey⟩ := exists_key skill hs
  obtain ⟨before, best, after, hsplit, hselect, hbefore, hafter⟩ :=
    select_split (fun card _ => (hkey card).1) (fun card _ => (hkey card).2.1) hne
  obtain ⟨front, back, hvalues, hfront, hback⟩ := List.filter_eq_append_iff.mp hsplit
  obtain ⟨skipped, rest, hrest, hskipped, hbest, _⟩ := List.filter_eq_cons_iff.mp hback
  have hbetter : ∀ card ∈ before, Better skill strategy best card := fun card hcard =>
    ((hkey best).2.2 card).mp (hbefore card hcard)
  refine ⟨best, hselect, (isCandidate_iff hd best).mp hbest, ?_, front ++ skipped, rest, ?_, ?_⟩
  · intro card hcard hsupports
    have hmem := (mem_candidates_iff hd).mpr ⟨hcard, hsupports⟩
    rw [hsplit] at hmem
    rcases List.mem_append.mp hmem with hmem | hmem
    · exact (hbetter card hmem).asymm hs
    · rcases List.mem_cons.mp hmem with rfl | hmem
      · exact fun h => h.asymm hs h
      · rw [← (hkey card).2.2 best, hafter card hmem]
        simp
  · rw [hvalues, hrest, List.append_assoc]
  · intro card hcard hsupports
    rcases List.mem_append.mp hcard with hcard | hcard
    · apply hbetter card
      rw [← hfront]
      exact List.mem_filter.mpr ⟨hcard, (isCandidate_iff hd card).mpr hsupports⟩
    · exact (hskipped card hcard ((isCandidate_iff hd card).mpr hsupports)).elim

end Optimal

/-- The router answers with none exactly if no card supports the skill, and else
with the first of the best; another order of discovery gives one as good. -/
theorem select_optimal (delegates : Delegates) (skill : String) (strategy : RoutingStrategy)
    (trustDomain : Option String) (hs : strategy ≠ .balanced) (hd : trustDomain ≠ some "") :
    ∃ choice, select delegates skill strategy trustDomain = .ok choice ∧
      (choice = none ↔ ∀ card ∈ delegates.values, ¬ Supports skill trustDomain card) ∧
      (∀ best, choice = some best → FirstBest delegates skill strategy trustDomain best) ∧
      ∀ (delegates' : Delegates) best best', choice = some best →
        delegates'.values.Perm delegates.values →
        select delegates' skill strategy trustDomain = .ok (some best') →
        ¬ Better skill strategy best best' ∧ ¬ Better skill strategy best' best := by
  by_cases hnone : candidates delegates skill trustDomain = []
  · refine ⟨none, select_none hnone, ⟨fun _ => ?_, fun _ => rfl⟩, by simp, by simp⟩
    intro card hcard hsupports
    have hmem := (mem_candidates_iff hd).mpr ⟨hcard, hsupports⟩
    rw [hnone] at hmem
    cases hmem
  · obtain ⟨best, hselect, hbest⟩ := select_firstBest hs hd hnone
    obtain ⟨before, after, hvalues, _⟩ := hbest.first
    have hmem : best ∈ delegates.values := by simp [hvalues]
    refine ⟨some best, hselect, ⟨by simp, fun h => (h best hmem hbest.supports).elim⟩, ?_, ?_⟩
    · rintro _ ⟨⟩
      exact hbest
    · rintro delegates' _ best' ⟨⟩ hperm hselect'
      have hsupported : candidates delegates' skill trustDomain ≠ [] := List.ne_nil_of_mem
        ((mem_candidates_iff hd).mpr ⟨hperm.mem_iff.mpr hmem, hbest.supports⟩)
      obtain ⟨other, hother, hfirst⟩ := select_firstBest hs hd hsupported
      cases hselect'.symm.trans hother
      obtain ⟨before', after', hvalues', _⟩ := hfirst.first
      have hmem' : best' ∈ delegates'.values := by simp [hvalues']
      exact ⟨hfirst.optimal best (hperm.mem_iff.mpr hmem) hbest.supports,
        hbest.optimal best' (hperm.mem_iff.mp hmem') hfirst.supports⟩

/-- A card with one capability. -/
def cardWith (delegateId skill : String) (quality : QualityMetrics) : LdpIdentityCard where
  delegateId := delegateId
  name := delegateId
  modelFamily := "m"
  modelVersion := "1"
  trustDomain := { name := "default" }
  contextWindow := 4096
  capabilities := [{ name := skill, quality := some quality }]

/-- The second of these costs nothing that is known. -/
def fastAndDeep : Delegates :=
  (OrderedMap.empty.set "http://localhost:8091"
    (cardWith "ldp:delegate:fast" "reasoning" { costPerCallUsd := some (1 / 1000) })).set
    "http://localhost:8092" (cardWith "ldp:delegate:deep" "reasoning" {})

theorem select_optimal_fastAndDeep : ∃ best,
    select fastAndDeep "reasoning" .cost none = .ok (some best) ∧
      FirstBest fastAndDeep "reasoning" .cost none best := by
  obtain ⟨choice, hselect, hnone, hbest, _⟩ :=
    select_optimal fastAndDeep "reasoning" .cost none (by decide) (by decide)
  cases choice with
  | none =>
      have hno := hnone.mp rfl (cardWith "ldp:delegate:deep" "reasoning" {}) (by
        simp [fastAndDeep, OrderedMap.values, OrderedMap.set, OrderedMap.empty, assign])
      exact (hno ⟨⟨_, List.mem_singleton_self _, rfl⟩, by simp⟩).elim
  | some best => exact ⟨best, hselect, hbest best rfl⟩

end LdpProtocol.RoutedSelection
