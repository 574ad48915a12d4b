import PairIndex.Proofs.Ingest.Position

/-! Whose a position is, and the order in which transactions are processed. A creation settles the owner in whatever order
it comes in. Without one the event that comes in first does, and a liquidation does not tell the owner: so the order of
transactions does not matter exactly if there is a creation, or the first events about the position are liquidations in
all of the transactions or in none (`Call.owner_independent_iff`). -/

namespace PairIndex

/-- Two optional values are equal if both or neither are there and they do not differ. -/
theorem Option.eq_iff_isSome_eq {α : Type} {x y : Option α} :
    x = y ↔ x.isSome = y.isSome ∧ ∀ u ∈ x, ∀ v ∈ y, u = v := by
  cases x <;> cases y <;> simp

namespace PositionTelling

/-- Two events about one position do not contradict one another about whose it is: they tell the same pair, creations tell
the same owner, and so do other events as far as they tell one. -/
def Agrees : PositionTelling → PositionTelling → Prop
  | .created user pair, .created user' pair' => user = user' ∧ pair = pair'
  | .moved owner pair _ _, .moved owner' pair' _ _ => (∀ u ∈ owner, ∀ v ∈ owner', u = v) ∧ pair = pair'
  | .created _ pair, .moved _ pair' _ _ => pair = pair'
  | .moved _ pair _ _, .created _ pair' => pair = pair'

instance (told told' : PositionTelling) : Decidable (told.Agrees told') :=
  match told, told' with
  | .created _ _, .created _ _ => inferInstanceAs (Decidable (_ ∧ _))
  | .moved owner _ _ _, .moved owner' _ _ _ => inferInstanceAs (Decidable ((∀ u ∈ owner, ∀ v ∈ owner', u = v) ∧ _))
  | .created _ _, .moved _ _ _ _ => inferInstanceAs (Decidable (_ = _))
  | .moved _ _ _ _, .created _ _ => inferInstanceAs (Decidable (_ = _))

theorem Agrees.creation_eq {told told' : PositionTelling} (h : told.Agrees told') {owner owner' : Option String × String}
    (howner : told.creation? = some owner) (howner' : told'.creation? = some owner') : owner = owner' := by
  cases told with
  | moved => cases howner
  | created user pair =>
    cases told' with
    | moved => cases howner'
    | created user' pair' =>
      obtain ⟨rfl, rfl⟩ := h
      cases howner
      cases howner'
      rfl

/-- Two events that are no creations tell the same if both or neither tell the owner. -/
theorem Agrees.owner_eq {told told' : PositionTelling} (h : told.Agrees told') (hother : told.creation? = none)
    (hother' : told'.creation? = none) (hsome : told.owner.1.isSome = told'.owner.1.isSome) :
    told.owner = told'.owner := by
  cases told with
  | created => cases hother
  | moved owner pair balances liquidated =>
    cases told' with
    | created => cases hother'
    | moved owner' pair' balances' liquidated' =>
      obtain ⟨howner, rfl⟩ := h
      exact congrArg (fun user => (user, pair)) (Option.eq_iff_isSome_eq.mpr ⟨hsome, howner⟩)

/-- The owner of a position that was unknown, after all that was told of it. -/
def ownerTold (told : List PositionTelling) : Option (Option String × String) :=
  (told.filterMap creation?).getLast?.or (told.head?.map owner)

variable {told : List PositionTelling}

/-- A creation settles the owner wherever it stands. -/
theorem ownerTold_of_creation (hagree : ∀ a ∈ told, ∀ b ∈ told, a.Agrees b) {first : PositionTelling}
    (hfirst : first ∈ told) {owner : Option String × String} (howner : first.creation? = some owner) :
    ownerTold told = some owner := by
  have hmem : owner ∈ told.filterMap creation? := List.mem_filterMap.mpr ⟨first, hfirst, howner⟩
  rw [ownerTold]
  cases hlast : (told.filterMap creation?).getLast? with
  | none =>
    rw [List.getLast?_eq_none_iff.mp hlast] at hmem
    cases hmem
  | some latest =>
    obtain ⟨last, hlastMem, hlatest⟩ := List.mem_filterMap.mp (List.mem_of_getLast? hlast)
    exact congrArg some ((hagree last hlastMem first hfirst).creation_eq hlatest howner)

/-- Without a creation the first event settles it. -/
theorem ownerTold_of_no_creation (hnone : ∀ a ∈ told, a.creation? = none) : ownerTold told = told.head?.map owner := by
  rw [ownerTold, List.filterMap_eq_nil_iff.mpr hnone, List.getLast?_nil, Option.none_or]

/-- Whether there is a creation among events about a position. -/
def Creates (told : List PositionTelling) : Prop :=
  ∃ a ∈ told, a.creation? ≠ none

theorem isSome_getLast?_iff_creates (told : List PositionTelling) :
    (told.filterMap creation?).getLast?.isSome ↔ Creates told :=
  isSome_getLast?_filterMap creation? told

/-- Lists of events about one position start alike: there is a creation among them, or their first events tell the owner
in all of the lists or in none. -/
def StartAlike (tellings : List (List PositionTelling)) : Prop :=
  (∃ told ∈ tellings, Creates told) ∨
    ∀ told ∈ tellings, ∀ told' ∈ tellings, ∀ a ∈ told.head?, ∀ b ∈ told'.head?, a.owner.1.isSome = b.owner.1.isSome

theorem exists_head_of_flatten {tellings : List (List PositionTelling)} {a : PositionTelling}
    (h : tellings.flatten.head? = some a) : ∃ told ∈ tellings, told.head? = some a := by
  rw [List.head?_flatten] at h
  exact List.exists_of_findSome?_eq_some h

/-- The order of lists that agree and start alike does not matter. -/
theorem StartAlike.ownerTold_eq {tellings tellings' : List (List PositionTelling)} (h : StartAlike tellings)
    (hagree : ∀ a ∈ tellings.flatten, ∀ b ∈ tellings.flatten, a.Agrees b) (hperm : tellings.Perm tellings') :
    ownerTold tellings.flatten = ownerTold tellings'.flatten := by
  have hmem : ∀ a, a ∈ tellings'.flatten ↔ a ∈ tellings.flatten := fun a => hperm.flatten.symm.mem_iff
  have hagree' : ∀ a ∈ tellings'.flatten, ∀ b ∈ tellings'.flatten, a.Agrees b :=
    fun a ha b hb => hagree a ((hmem a).mp ha) b ((hmem b).mp hb)
  by_cases hcreation : Creates tellings.flatten
  · obtain ⟨a, ha, hne⟩ := hcreation
    obtain ⟨owner, howner⟩ := Option.ne_none_iff_exists'.mp hne
    rw [ownerTold_of_creation hagree ha howner, ownerTold_of_creation hagree' ((hmem a).mpr ha) howner]
  · have hnone : ∀ a ∈ tellings.flatten, a.creation? = none :=
      fun a ha => Classical.not_not.mp fun hne => hcreation ⟨a, ha, hne⟩
    have hnone' : ∀ a ∈ tellings'.flatten, a.creation? = none := fun a ha => hnone a ((hmem a).mp ha)
    have hstart : ∀ told ∈ tellings, ∀ told' ∈ tellings, ∀ a ∈ told.head?, ∀ b ∈ told'.head?,
        a.owner.1.isSome = b.owner.1.isSome := by
      rcases h with ⟨told, htold, a, ha, hne⟩ | hstart
      · exact absurd (hnone a (List.mem_flatten_of_mem htold ha)) hne
      · exact hstart
    rw [ownerTold_of_no_creation hnone, ownerTold_of_no_creation hnone']
    by_cases hnil : tellings.flatten = []
    · have hnil' : tellings'.flatten = [] := List.Perm.eq_nil (hnil ▸ hperm.flatten.symm)
      rw [hnil, hnil']
    · have hnil' : tellings'.flatten ≠ [] := fun hnil' => hnil (List.Perm.eq_nil (hnil' ▸ hperm.flatten))
      obtain ⟨a, rest, hcons⟩ := List.exists_cons_of_ne_nil hnil
      obtain ⟨b, rest', hcons'⟩ := List.exists_cons_of_ne_nil hnil'
      have ha : a ∈ tellings.flatten := hcons ▸ List.mem_cons_self
      have hb : b ∈ tellings.flatten := (hmem b).mp (hcons' ▸ List.mem_cons_self)
      obtain ⟨told, htold, hfirst⟩ := exists_head_of_flatten (congrArg List.head? hcons)
      obtain ⟨told', htold', hfirst'⟩ := exists_head_of_flatten (congrArg List.head? hcons')
      have hsome := hstart told htold told' (hperm.mem_iff.mpr htold') a hfirst b hfirst'
      rw [hcons, hcons']
      exact congrArg some ((hagree a ha b hb).owner_eq (hnone a ha) (hnone b hb) hsome)

end PositionTelling

namespace Call

/-- What a call tells of a position. -/
def tellings (address : String) (call : Call) : List PositionTelling :=
  Commit.tellingsOf address (call.committed [])

/-- The owner and the pair of a position after calls that start with an empty store. -/
def ownerAfter (calls : List Call) (address : String) : Option (Option String × String) :=
  ((runAll (undisturbed calls) .empty).positions.find? address).map (·.owner)

/-- The events of calls do not contradict one another about whose a position is. -/
def AgreeOnOwners (calls : List Call) : Prop :=
  ∀ e ∈ (transactionsOf (undisturbed calls)).flatMap (·.events),
    ∀ e' ∈ (transactionsOf (undisturbed calls)).flatMap (·.events),
      ∀ x ∈ e.body.positionTelling?, ∀ y ∈ e'.body.positionTelling?, x.1 = y.1 → x.2.Agrees y.2

instance (calls : List Call) : Decidable (AgreeOnOwners calls) :=
  inferInstanceAs (Decidable (∀ e ∈ (transactionsOf (undisturbed calls)).flatMap (·.events),
    ∀ e' ∈ (transactionsOf (undisturbed calls)).flatMap (·.events),
      ∀ x ∈ e.body.positionTelling?, ∀ y ∈ e'.body.positionTelling?, x.1 = y.1 → x.2.Agrees y.2))

variable {calls : List Call} {address : String}

theorem tellingsOf_trace (calls : List Call) (address : String) :
    Commit.tellingsOf address (trace (undisturbed calls)) = (calls.map (tellings address)).flatten := by
  rw [trace, undisturbed, List.flatMap_map, Commit.tellingsOf, List.filterMap_flatMap, List.flatMap_def]
  rfl

theorem ownerAfter_eq (calls : List Call) (address : String) :
    ownerAfter calls address = PositionTelling.ownerTold (calls.map (tellings address)).flatten := by
  rw [ownerAfter, store_runAll, Commit.find?_positions_applyAll, tellingsOf_trace]
  exact PositionTelling.owner_rowAfterAll address none _

theorem AgreeOnOwners.agrees (h : AgreeOnOwners calls) :
    ∀ a ∈ (calls.map (tellings address)).flatten, ∀ b ∈ (calls.map (tellings address)).flatten, a.Agrees b := by
  have hevent : ∀ told ∈ (calls.map (tellings address)).flatten,
      ∃ e ∈ (transactionsOf (undisturbed calls)).flatMap (·.events), e.body.positionTelling? = some (address, told) := by
    intro told htold
    rw [← tellingsOf_trace, Commit.mem_tellingsOf] at htold
    obtain ⟨signature, e, hmem, htelling⟩ := htold
    obtain ⟨tx, htx, -, -, he, -⟩ := exists_transaction_of_event hmem
    exact ⟨e, List.mem_flatMap.mpr ⟨tx, htx, he⟩, htelling⟩
  intro a ha b hb
  obtain ⟨e, he, htelling⟩ := hevent a ha
  obtain ⟨e', he', htelling'⟩ := hevent b hb
  exact h e he e' he' _ htelling _ htelling' rfl

/-- Without a creation the owner is the one that the first call tells with its first event about the position. -/
theorem ownerAfter_of_head {call : Call} {order : List Call} (hperm : (call :: order).Perm calls)
    (hnone : ∀ told ∈ calls.map (tellings address), ∀ a ∈ told, a.creation? = none) {a : PositionTelling}
    (ha : (tellings address call).head? = some a) : ownerAfter (call :: order) address = some a.owner := by
  rw [ownerAfter_eq, PositionTelling.ownerTold_of_no_creation, List.map_cons, List.flatten_cons, List.head?_append, ha]
  · rfl
  · intro b hb
    obtain ⟨told, htold, hbtold⟩ := List.mem_flatten.mp hb
    exact hnone told ((hperm.map _).mem_iff.mp htold) b hbtold

/-- Of transactions that agree on owners, the order leaves every position the same owner and pair exactly if, for every
position, they create it or all of them that tell of it start alike. -/
theorem owner_independent_iff (calls : List Call) (hagree : AgreeOnOwners calls) :
    (∀ order order', order.Perm calls → order'.Perm calls →
        ∀ address, ownerAfter order address = ownerAfter order' address) ↔
      ∀ address, PositionTelling.StartAlike (calls.map (tellings address)) := by
  constructor
  · intro hsame address
    by_cases hcreation : ∃ told ∈ calls.map (tellings address), PositionTelling.Creates told
    · exact Or.inl hcreation
    · have hnone : ∀ told ∈ calls.map (tellings address), ∀ a ∈ told, a.creation? = none :=
        fun told htold a ha => Classical.not_not.mp fun hne => hcreation ⟨told, htold, a, ha, hne⟩
      refine Or.inr (List.forall_mem_map.mpr fun call hcall => List.forall_mem_map.mpr fun call' hcall' a ha b hb => ?_)
      obtain ⟨before, after, rfl⟩ := List.append_of_mem hcall
      obtain ⟨before', after', heq⟩ := List.append_of_mem hcall'
      -- Either of the two calls may come first.
      have hperm : (call :: (before ++ after)).Perm (before ++ call :: after) := List.perm_middle.symm
      have hperm' : (call' :: (before' ++ after')).Perm (before ++ call :: after) := heq ▸ List.perm_middle.symm
      have howner := hsame _ _ hperm hperm' address
      rw [ownerAfter_of_head hperm hnone ha, ownerAfter_of_head hperm' hnone hb] at howner
      exact congrArg (·.1.isSome) (Option.some.inj howner)
  · intro hstart order order' hperm hperm' address
    have hsame : ∀ order : List Call, order.Perm calls → ownerAfter order address = ownerAfter calls address := by
      intro order hperm
      rw [ownerAfter_eq, ownerAfter_eq]
      exact ((hstart address).ownerTold_eq hagree.agrees (hperm.symm.map _)).symm
    rw [hsame order hperm, hsame order' hperm']

/-- A user creates a position. -/
def creation : Call :=
  .decoded ⟨"creation", 1, none, [⟨.positionCreated (.small 1) (.small 2) (.small 3) 0, 0⟩], false⟩

/-- The same user changes it. -/
def update : Call :=
  .decoded ⟨"update", 2, none, [⟨.positionUpdated (.small 3) ⟨10, 20, 30, 40⟩ ⟨.small 1, .small 2, 1, 0⟩, 0⟩], false⟩

/-- Somebody else liquidates it. -/
def liquidation : Call :=
  .decoded ⟨"liquidation", 3, none,
    [⟨.positionLiquidated (.small 3) (.small 4) 1 2 3 4 5 6 ⟨0, 0, 0, 0⟩ ⟨.small 4, .small 2, 2, 0⟩, 0⟩], false⟩

theorem owner_independent_iff_creation : AgreeOnOwners [creation, update, liquidation] ∧
    ((∀ order order', order.Perm [creation, update, liquidation] → order'.Perm [creation, update, liquidation] →
        ∀ address, ownerAfter order address = ownerAfter order' address) ↔
      ∀ address, PositionTelling.StartAlike ([creation, update, liquidation].map (tellings address))) := by
  have hagree : AgreeOnOwners [creation, update, liquidation] := by decide +kernel
  exact ⟨hagree, owner_independent_iff _ hagree⟩

/-- Without the creation the owner is known only if the update comes in before the liquidation. -/
theorem owner_depends_on_order : AgreeOnOwners [update, liquidation] ∧
    ownerAfter [update, liquidation] (PublicKey.small 3).toText =
      some (some (PublicKey.small 1).toText, (PublicKey.small 2).toText) ∧
    ownerAfter [liquidation, update] (PublicKey.small 3).toText = some (none, (PublicKey.small 2).toText) := by
  decide +kernel

end Call
end PairIndex
