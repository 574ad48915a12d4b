import PairIndex.Event.Classify

/-! Classification by rank. Kinds are ranked, and the primary event of a transaction is the first of those that have the
lowest rank; the type of the transaction follows from it alone (`classify_eq_of_isPrimary`). So events of a higher rank,
wherever they stand, change neither (`IsPrimary.of_enlarged`). -/

namespace PairIndex

/-! ## Ranks -/

/-- The rank of a kind; lower ranks decide before higher ones. -/
def EventKind.rank : EventKind → Nat
  | .positionLiquidated => 0
  | .adjustDebt => 1
  | .adjustCollateral => 2
  | .swap => 3
  | .mint => 4
  | .burn | .adjustLiquidity => 5
  | _ => 6

def Event.rank (e : Event) : Nat :=
  e.body.kind.rank

/-- The type that an event gives the transaction whose primary event it is. Amounts that grow say that something was
borrowed or added. -/
def EventBody.transactionType (body : EventBody) : TransactionType :=
  match body with
  | .positionLiquidated .. => .liquidate
  | .adjustDebt amount0 amount1 _ => if 0 < amount0 ∨ 0 < amount1 then .borrow else .repay
  | .adjustCollateral amount0 amount1 _ => if 0 < amount0 ∨ 0 < amount1 then .addCollateral else .removeCollateral
  | .swap .. => .swap
  | .mint .. => .addLiquidity
  | .burn .. => .removeLiquidity
  | .adjustLiquidity amount0 amount1 _ _ => if 0 < amount0 ∨ 0 < amount1 then .addLiquidity else .removeLiquidity
  | .pairCreated .. | .updatePair .. | .flashloan .. | .positionCreated .. | .positionUpdated .. => .other

/-- The first event, in the order of a list, among those of the lowest rank. -/
structure IsPrimary (events : List Event) (e : Event) : Prop where
  lowest : ∀ x ∈ events, e.rank ≤ x.rank
  first : ∃ before after, events = before ++ e :: after ∧ ∀ x ∈ before, e.rank < x.rank

variable {events : List Event} {e : Event}

/-- A list with events has a primary one. -/
theorem exists_isPrimary (h : events ≠ []) : ∃ e, IsPrimary events e := by
  induction events with
  | nil => exact absurd rfl h
  | cons x rest ih =>
    by_cases hrest : rest = []
    · subst hrest
      exact ⟨x, by simp, [], [], rfl, by simp⟩
    · obtain ⟨e, hlowest, before, after, rfl, hbefore⟩ := ih hrest
      by_cases hrank : e.rank < x.rank
      · refine ⟨e, ?_, x :: before, after, rfl, ?_⟩
        · simpa [Nat.le_of_lt hrank] using hlowest
        · simpa [hrank] using hbefore
      · refine ⟨x, ?_, [], _, rfl, by simp⟩
        intro y hy
        rcases List.mem_cons.mp hy with rfl | hy
        · exact Nat.le_refl _
        · exact Nat.le_trans (Nat.not_lt.mp hrank) (hlowest y hy)

/-! ## The search by kinds -/

theorem ofKinds_ofKinds {kinds kinds' : List EventKind} (h : ∀ kind ∈ kinds, kind ∈ kinds') (events : List Event) :
    ofKinds kinds (ofKinds kinds' events) = ofKinds kinds events := by
  rw [ofKinds, ofKinds, List.filter_filter]
  refine List.filter_congr fun x _ => ?_
  have hmem : kinds.contains x.body.kind = true → kinds'.contains x.body.kind = true := by
    simpa using h x.body.kind
  cases hx : kinds.contains x.body.kind <;> simp_all

/-- Kinds of a lower rank than the primary event are not found. -/
theorem IsPrimary.ofKinds_eq_nil (h : IsPrimary events e) {kinds : List EventKind}
    (hkinds : ∀ kind ∈ kinds, kind.rank < e.rank) : ofKinds kinds events = [] := by
  refine List.filter_eq_nil_iff.mpr fun x hx hmem => ?_
  exact absurd (h.lowest x hx) (Nat.not_le.mpr (hkinds _ (by simpa using hmem)))

/-- Of kinds up to the rank of the primary event, its own among them, the primary event is found first. -/
theorem IsPrimary.ofKinds_eq_cons (h : IsPrimary events e) {kinds : List EventKind} (hmem : e.body.kind ∈ kinds)
    (hkinds : ∀ kind ∈ kinds, kind.rank ≤ e.rank) : ∃ more, ofKinds kinds events = e :: more := by
  obtain ⟨before, after, rfl, hbefore⟩ := h.first
  have hnone : ofKinds kinds before = [] := by
    refine List.filter_eq_nil_iff.mpr fun x hx hfound => ?_
    exact absurd (hbefore x hx) (Nat.not_lt.mpr (hkinds _ (by simpa using hfound)))
  refine ⟨ofKinds kinds after, ?_⟩
  rw [ofKinds] at hnone ⊢
  rw [List.filter_append, hnone, List.nil_append, List.filter_cons_of_pos (by simpa using hmem)]
  rfl

theorem IsPrimary.ofKind_eq_nil (h : IsPrimary events e) (kind : EventKind) (hrank : kind.rank < e.rank) :
    ofKinds [kind] events = [] :=
  h.ofKinds_eq_nil (by simpa using hrank)

theorem IsPrimary.ofKind_eq_cons (h : IsPrimary events e) {kind : EventKind} (hkind : e.body.kind = kind) :
    ∃ more, ofKinds [kind] events = e :: more :=
  h.ofKinds_eq_cons (by simp [hkind]) (by simp [Event.rank, hkind])

/-- An event of the last rank is primary only at the head of a list. -/
theorem IsPrimary.head?_eq (h : IsPrimary events e) (hrank : e.rank = 6) : events.head? = some e := by
  obtain ⟨before, after, rfl, hbefore⟩ := h.first
  cases before with
  | nil => rfl
  | cons x before =>
    have hlater : e.rank < x.rank := hbefore x List.mem_cons_self
    have hlast : x.rank ≤ 6 := by
      rw [Event.rank]
      cases x.body.kind <;> decide
    omega

/-- Among changes of liquidity, a first one that is minted decides, or else the first. -/
theorem IsPrimary.liquidity_found (h : IsPrimary events e) (hkind : e.body.kind ∈ [EventKind.mint, .burn, .adjustLiquidity]) :
    ∃ first rest, ofKinds [.mint, .burn, .adjustLiquidity] events = first :: rest ∧
      (e.rank = 4 → ∃ more, ofKinds [.mint] (first :: rest) = e :: more) ∧
      (e.rank = 5 → first = e ∧ ofKinds [.mint] (first :: rest) = []) := by
  have hinner : ofKinds [.mint] (ofKinds [.mint, .burn, .adjustLiquidity] events) = ofKinds [.mint] events :=
    ofKinds_ofKinds (by simp) events
  cases hfound : ofKinds [.mint, .burn, .adjustLiquidity] events with
  | nil =>
    obtain ⟨before, after, rfl, -⟩ := h.first
    have hmem := List.filter_eq_nil_iff.mp hfound e (by simp)
    exact absurd (by simpa using hkind) hmem
  | cons first rest =>
    rw [hfound] at hinner
    refine ⟨first, rest, rfl, fun hrank => ?_, fun hrank => ?_⟩
    · have hmint : e.body.kind = .mint := by
        rw [Event.rank] at hrank
        cases hk : e.body.kind <;> simp_all [EventKind.rank]
      rw [hinner]
      exact h.ofKind_eq_cons hmint
    · obtain ⟨more, hmore⟩ := h.ofKinds_eq_cons hkind (by simp [EventKind.rank, hrank])
      rw [hfound] at hmore
      have hnone := h.ofKind_eq_nil .mint (by simp [EventKind.rank, hrank])
      exact ⟨(List.cons.inj hmore).1, hinner.trans hnone⟩

/-- The primary event is the one that decides, and it alone gives the type. -/
theorem classify_eq_of_isPrimary (h : IsPrimary events e) : classify events = (e.body.transactionType, some e) := by
  have hnone := h.ofKind_eq_nil
  have hown := h.ofKind_eq_cons rfl
  have hliquidity := h.liquidity_found
  have hlast : 5 < e.rank → ofKinds [.mint, .burn, .adjustLiquidity] events = [] := fun hrank =>
    h.ofKinds_eq_nil (by simp [EventKind.rank]; omega)
  have hhead := h.head?_eq
  obtain ⟨body, logIndex⟩ := e
  cases body with
  | positionLiquidated =>
    obtain ⟨more, hmore⟩ : ∃ more, ofKinds [.positionLiquidated] events = _ :: more := hown
    simp only [classify, hmore, EventBody.transactionType]
  | adjustDebt =>
    obtain ⟨more, hmore⟩ : ∃ more, ofKinds [.adjustDebt] events = _ :: more := hown
    simp [classify, hnone .positionLiquidated (by decide : 0 < 1), hmore, EventBody.transactionType, EventBody.grows]
  | adjustCollateral =>
    obtain ⟨more, hmore⟩ : ∃ more, ofKinds [.adjustCollateral] events = _ :: more := hown
    simp [classify, hnone .positionLiquidated (by decide : 0 < 2), hnone .adjustDebt (by decide : 1 < 2), hmore,
      EventBody.transactionType, EventBody.grows]
  | swap =>
    obtain ⟨more, hmore⟩ : ∃ more, ofKinds [.swap] events = _ :: more := hown
    simp [classify, hnone .positionLiquidated (by decide : 0 < 3), hnone .adjustDebt (by decide : 1 < 3),
      hnone .adjustCollateral (by decide : 2 < 3), hmore, EventBody.transactionType]
  | mint =>
    obtain ⟨first, rest, hfound, hmint, -⟩ := hliquidity (by simp [EventBody.kind])
    obtain ⟨more, hmore⟩ := hmint rfl
    simp [classify, hnone .positionLiquidated (by decide : 0 < 4), hnone .adjustDebt (by decide : 1 < 4),
      hnone .adjustCollateral (by decide : 2 < 4), hnone .swap (by decide : 3 < 4), hfound, hmore,
      EventBody.transactionType]
  | burn | adjustLiquidity =>
    obtain ⟨first, rest, hfound, -, hfirst⟩ := hliquidity (by simp [EventBody.kind])
    obtain ⟨rfl, hmint⟩ := hfirst rfl
    simp [classify, hnone .positionLiquidated (by decide : 0 < 5), hnone .adjustDebt (by decide : 1 < 5),
      hnone .adjustCollateral (by decide : 2 < 5), hnone .swap (by decide : 3 < 5), hfound, hmint,
      EventBody.transactionType, EventBody.liquidityChange]
  | pairCreated | updatePair | flashloan | positionCreated | positionUpdated =>
    simp [classify, hnone .positionLiquidated (by decide : 0 < 6), hnone .adjustDebt (by decide : 1 < 6),
      hnone .adjustCollateral (by decide : 2 < 6), hnone .swap (by decide : 3 < 6), hlast (by decide : 5 < 6), hhead rfl,
      EventBody.transactionType]

theorem exists_classify_eq (h : events ≠ []) :
    ∃ e, IsPrimary events e ∧ classify events = (e.body.transactionType, some e) := by
  obtain ⟨e, he⟩ := exists_isPrimary h
  exact ⟨e, he, classify_eq_of_isPrimary he⟩

/-! ## Events that are put in -/

/-- A list with further events of a property put in, anywhere. -/
inductive Enlarged (p : Event → Prop) : List Event → List Event → Prop where
  | nil : Enlarged p [] []
  | keep (x : Event) {events larger : List Event} : Enlarged p events larger → Enlarged p (x :: events) (x :: larger)
  | put {x : Event} {events larger : List Event} : p x → Enlarged p events larger → Enlarged p events (x :: larger)

variable {p : Event → Prop} {larger : List Event}

theorem Enlarged.mem (h : Enlarged p events larger) {x : Event} (hx : x ∈ larger) : x ∈ events ∨ p x := by
  induction h with
  | nil => exact .inl hx
  | keep y _ ih =>
    rcases List.mem_cons.mp hx with rfl | hx
    · exact .inl List.mem_cons_self
    · exact (ih hx).imp_left (List.mem_cons_of_mem y)
  | put hy _ ih =>
    rcases List.mem_cons.mp hx with rfl | hx
    · exact .inr hy
    · exact ih hx

/-- What stands before an event keeps standing before it, and only what was put in is added. -/
theorem Enlarged.split (h : Enlarged p events larger) {before after : List Event}
    (hsplit : events = before ++ e :: after) :
    ∃ before' after', larger = before' ++ e :: after' ∧ ∀ x ∈ before', x ∈ before ∨ p x := by
  induction h generalizing before with
  | nil => simp at hsplit
  | @keep x events larger _ ih =>
    cases before with
    | nil =>
      obtain ⟨rfl, -⟩ := List.cons.inj hsplit
      exact ⟨[], larger, rfl, by simp⟩
    | cons y before =>
      obtain ⟨rfl, htail⟩ := List.cons.inj hsplit
      obtain ⟨before', after', rfl, hbefore⟩ := ih htail
      refine ⟨x :: before', after', rfl, fun z hz => ?_⟩
      rcases List.mem_cons.mp hz with rfl | hz
      · exact .inl List.mem_cons_self
      · exact (hbefore z hz).imp_left (List.mem_cons_of_mem x)
  | @put x events larger hx _ ih =>
    obtain ⟨before', after', rfl, hbefore⟩ := ih hsplit
    refine ⟨x :: before', after', rfl, fun z hz => ?_⟩
    rcases List.mem_cons.mp hz with rfl | hz
    · exact .inr hx
    · exact hbefore z hz

/-- Events of a higher rank do not displace the primary event. -/
theorem IsPrimary.of_enlarged (h : IsPrimary events e) (hlarger : Enlarged (fun x => e.rank < x.rank) events larger) :
    IsPrimary larger e := by
  obtain ⟨before, after, hsplit, hbefore⟩ := h.first
  obtain ⟨before', after', hsplit', hbefore'⟩ := hlarger.split hsplit
  refine ⟨fun x hx => ?_, before', after', hsplit', fun x hx => ?_⟩
  · exact (hlarger.mem hx).elim (h.lowest x) Nat.le_of_lt
  · exact (hbefore' x hx).elim (hbefore x) id

/-- A transaction is classified by its primary event: there is one unless it tells no events, it is the first of those of
the lowest rank, it alone gives the type, and events of a higher rank may be put in anywhere and change neither. -/
theorem classify_by_rank (events : List Event) :
    ((classify events).2 = none ↔ events = []) ∧
      (∀ e, (classify events).2 = some e ↔ IsPrimary events e) ∧
      (classify events).1 = ((classify events).2.map (·.body.transactionType)).getD .other ∧
      ∀ e larger, (classify events).2 = some e → Enlarged (fun x => e.rank < x.rank) events larger →
        classify larger = classify events := by
  by_cases hevents : events = []
  · subst hevents
    have hno : ∀ e, ¬IsPrimary [] e := by
      rintro e ⟨-, before, after, hsplit, -⟩
      simp at hsplit
    refine ⟨iff_of_true rfl rfl, fun e => iff_of_false nofun (hno e), rfl, nofun⟩
  · obtain ⟨e, he, hclass⟩ := exists_classify_eq hevents
    rw [hclass]
    refine ⟨iff_of_false (Option.some_ne_none e) hevents, fun e' => ⟨?_, fun he' => ?_⟩, rfl, ?_⟩
    · rintro ⟨⟩
      exact he
    · rw [← hclass, classify_eq_of_isPrimary he']
    · rintro e larger ⟨⟩ hlarger
      exact classify_eq_of_isPrimary (he.of_enlarged hlarger)

end PairIndex
