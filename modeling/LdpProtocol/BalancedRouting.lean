import LdpProtocol.RoutedSelection

/-!
# Balanced routing

The score divides by cost times latency plus a small constant. It is a number
exactly if the reported cost does not bring the denominator to zero, or if no
cost is reported and the latency is not zero. One candidate whose denominator is
zero makes the router raise, whatever the others offer.
-/
namespace LdpProtocol.BalancedRouting
open PythonIdentity ExactFloats InsertionOrderedMaps PythonRouter RoutedSelection

/-- The router chooses, every candidate has a score, and no score is above that
of the choice. -/
def RoutesBalanced (delegates : Delegates) (skill : String) (trustDomain : Option String) :
    Prop :=
  ∃ best ∈ candidates delegates skill trustDomain,
    select delegates skill .balanced trustDomain = .ok (some best) ∧
    ∀ card ∈ candidates delegates skill trustDomain,
      ∃ score top, balancedScore skill card = .ok score ∧ score ≠ .nan ∧
        balancedScore skill best = .ok top ∧ top.lt score = false

/-- What a card reports for the skill keeps its score a number. -/
def Scorable (skill : String) (card : LdpIdentityCard) : Prop :=
  match card.costPerCall skill with
  | some usd => usd * card.latency skill + 1 / 10 ^ 9 ≠ 0
  | none => card.latency skill ≠ 0

section
variable {skill : String} {card : LdpIdentityCard} {delegates : Delegates}
  {trustDomain : Option String}

theorem balancedScore_priced {usd : ℚ} (h : card.costPerCall skill = some usd) :
    balancedScore skill card =
      if usd * card.latency skill + 1 / 10 ^ 9 = 0 then .error .zeroDivision
      else .ok (.finite (card.qualityScore skill / (usd * card.latency skill + 1 / 10 ^ 9))) := by
  unfold balancedScore LdpIdentityCard.cost
  rw [h]
  rfl

/-- An infinite denominator leaves nothing of the quality. -/
theorem balancedScore_unpriced (h : card.costPerCall skill = none) :
    balancedScore skill card = .ok (if card.latency skill = 0 then .nan else .finite 0) := by
  unfold balancedScore LdpIdentityCard.cost
  rw [h]
  rcases lt_trichotomy (card.latency skill) 0 with hneg | hzero | hpos
  · have hlatency : ((card.latency skill : ℤ) : ℚ) < 0 := by exact_mod_cast hneg
    simp [ExactFloat.mul, ExactFloat.scale, ExactFloat.neg, ExactFloat.add, ExactFloat.div,
      hlatency, hlatency.not_gt, hneg.ne]
  · simp [ExactFloat.mul, ExactFloat.scale, ExactFloat.add, ExactFloat.div, hzero]
  · have hlatency : (0 : ℚ) < ((card.latency skill : ℤ) : ℚ) := by exact_mod_cast hpos
    simp [ExactFloat.mul, ExactFloat.scale, ExactFloat.add, ExactFloat.div, hlatency, hpos.ne']

theorem score_iff : (∃ score, balancedScore skill card = .ok score ∧ score ≠ .nan) ↔
    Scorable skill card := by
  unfold Scorable
  cases hcost : card.costPerCall skill with
  | some usd =>
      rw [balancedScore_priced hcost]
      by_cases hzero : usd * card.latency skill + 1 / 10 ^ 9 = 0
      · rw [if_pos hzero]
        refine iff_of_false ?_ (not_not.mpr hzero)
        intro h
        obtain ⟨score, hscore, _⟩ := h
        cases hscore
      · rw [if_neg hzero]
        exact iff_of_true ⟨_, rfl, by simp⟩ hzero
  | none =>
      rw [balancedScore_unpriced hcost]
      by_cases hzero : card.latency skill = 0
      · simp [hzero]
      · simp [hzero]

theorem select_raises (hmem : card ∈ candidates delegates skill trustDomain)
    (h : balancedScore skill card = .error .zeroDivision) :
    select delegates skill .balanced trustDomain = .error .zeroDivision := by
  have hkey : sortKey skill .balanced card = .error .zeroDivision := h
  unfold select
  rw [mapM_keyed_raises hmem hkey]
  rfl

theorem select_greatest (hne : candidates delegates skill trustDomain ≠ [])
    {score : LdpIdentityCard → ExactFloat}
    (hscore : ∀ card ∈ candidates delegates skill trustDomain,
      balancedScore skill card = .ok (score card))
    (hnan : ∀ card ∈ candidates delegates skill trustDomain, score card ≠ .nan) :
    ∃ best ∈ candidates delegates skill trustDomain,
      select delegates skill .balanced trustDomain = .ok (some best) ∧
      ∀ card ∈ candidates delegates skill trustDomain, (score best).lt (score card) = false := by
  have hkey : ∀ card ∈ candidates delegates skill trustDomain,
      sortKey skill .balanced card = .ok (score card) := hscore
  obtain ⟨before, best, after, hsplit, hselect, hbefore, hafter⟩ := select_split hkey hnan hne
  refine ⟨best, by simp [hsplit], hselect, ?_⟩
  have hplace : ∀ card ∈ candidates delegates skill trustDomain,
      (score card).lt (score best) = true → (score best).lt (score card) = false := by
    intro card hcard hlt
    have hbest : score best ≠ .nan := hnan best (by simp [hsplit])
    have hbelow := (ExactFloat.lt_iff (hnan card hcard) hbest).mp hlt
    rw [← Bool.not_eq_true, ExactFloat.lt_iff hbest (hnan card hcard)]
    exact lt_asymm hbelow
  intro card hcard
  have hcases := hcard
  rw [hsplit] at hcases
  rcases List.mem_append.mp hcases with hmem | hmem
  · exact hplace card hcard (hbefore card hmem)
  · rcases List.mem_cons.mp hmem with rfl | hmem
    · rw [← Bool.not_eq_true, ExactFloat.lt_iff (hnan _ hcard) (hnan _ hcard)]
      exact lt_irrefl _
    · exact hafter card hmem

end

/-- Balanced routing keeps its promise exactly when every candidate is scorable. -/
theorem balanced_iff (delegates : Delegates) (skill : String) (trustDomain : Option String)
    (hne : candidates delegates skill trustDomain ≠ []) :
    RoutesBalanced delegates skill trustDomain ↔
      ∀ card ∈ candidates delegates skill trustDomain, Scorable skill card := by
  constructor
  · intro h card hcard
    obtain ⟨best, _, _, hall⟩ := h
    obtain ⟨score, _, hscore, hnan, _⟩ := hall card hcard
    exact score_iff.mp ⟨score, hscore, hnan⟩
  · intro h
    have hscores : ∀ card, ∃ score, card ∈ candidates delegates skill trustDomain →
        balancedScore skill card = .ok score ∧ score ≠ .nan := by
      intro card
      by_cases hcard : card ∈ candidates delegates skill trustDomain
      · obtain ⟨score, hscore⟩ := score_iff.mpr (h card hcard)
        exact ⟨score, fun _ => hscore⟩
      · exact ⟨.nan, fun hmem => (hcard hmem).elim⟩
    choose score hscore using hscores
    obtain ⟨best, hbest, hselect, hgreatest⟩ := select_greatest hne
      (fun card hcard => (hscore card hcard).1) (fun card hcard => (hscore card hcard).2)
    refine ⟨best, hbest, hselect, ?_⟩
    intro card hcard
    exact ⟨score card, score best, (hscore card hcard).1, (hscore card hcard).2,
      (hscore best hbest).1, hgreatest card hcard⟩

/-- Both are scorable: one has a cost, the other a latency that is not zero. -/
theorem balanced_iff_fastAndDeep : RoutesBalanced fastAndDeep "reasoning" none := by
  have hcandidates : candidates fastAndDeep "reasoning" none =
      [cardWith "ldp:delegate:fast" "reasoning" { costPerCallUsd := some (1 / 1000) },
        cardWith "ldp:delegate:deep" "reasoning" {}] := rfl
  refine (balanced_iff fastAndDeep "reasoning" none (by simp [hcandidates])).mpr ?_
  intro card hcard
  rw [hcandidates] at hcard
  rcases List.mem_cons.mp hcard with rfl | hcard
  · show (1 / 1000 : ℚ) * ((2 ^ 31 : ℤ) : ℚ) + 1 / 10 ^ 9 ≠ 0
    norm_num
  · rw [List.mem_singleton.mp hcard]
    show (2 ^ 31 : ℤ) ≠ 0
    norm_num

/-- A card that pays for being called, as much as the constant. -/
def rebate : LdpIdentityCard :=
  cardWith "ldp:delegate:rebate" "reasoning"
    { costPerCallUsd := some (-1 / 10 ^ 9), latencyP50Ms := some 1 }

theorem rebate_stops_routing :
    ¬ ∀ (delegates : Delegates) (skill : String) (trustDomain : Option String),
      candidates delegates skill trustDomain ≠ [] →
      RoutesBalanced delegates skill trustDomain := by
  intro h
  let delegates := fastAndDeep.set "http://localhost:8093" rebate
  have hmem : rebate ∈ candidates delegates "reasoning" none :=
    List.mem_cons_of_mem _ (List.mem_cons_of_mem _ List.mem_cons_self)
  have hzero : balancedScore "reasoning" rebate = .error .zeroDivision := by
    have hcost : rebate.costPerCall "reasoning" = some (-1 / 10 ^ 9) := rfl
    rw [balancedScore_priced hcost, if_pos]
    show (-1 / 10 ^ 9 : ℚ) * ((1 : ℤ) : ℚ) + 1 / 10 ^ 9 = 0
    norm_num
  obtain ⟨best, _, hselect, _⟩ := h delegates "reasoning" none (List.ne_nil_of_mem hmem)
  rw [select_raises hmem hzero] at hselect
  cases hselect

end LdpProtocol.BalancedRouting
