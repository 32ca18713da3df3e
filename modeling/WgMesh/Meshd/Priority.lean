/-
This file relates `prioritizedPorts` to the order in which ports deserve to be
tried.

A port near the center comes before one that is not, near ports are ordered by
their distance with the lower port first, and the others from the lowest on. This
is a strict order, so there is only one list of all ports that follows it. The
four loops of the source offer the ports in this order, apart from ports that were
offered before or that do not exist; the third loop offers nothing new. The
candidates are a first part of the list, and so a shorter scan tries the ports
that a longer one tries first.
-/

import WgMesh.Meshd.Ports

namespace WgMesh.Meshd

/-! ### The order of priority -/

/-- How far a port is from the center. -/
def portDistance (center : Int) (port : Nat) : Nat := (center - port).natAbs

/-- Near the center, the nearer port is tried first and the lower one of two that are equally far.
The ports that are not near follow, from the lowest on. -/
def Precedes (center : Int) (first second : Nat) : Prop :=
  (portDistance center first ≤ 4096 ∧
    (4096 < portDistance center second ∨
      portDistance center first < portDistance center second ∨
      portDistance center first = portDistance center second ∧ first < second)) ∨
  (4096 < portDistance center first ∧ 4096 < portDistance center second ∧ first < second)

instance (center : Int) (first second : Nat) : Decidable (Precedes center first second) :=
  inferInstanceAs (Decidable (_ ∨ _))

/-- All ports, in the order of priority. -/
structure IsPriorityOrder (center : Int) (ports : List Nat) : Prop where
  every : ports.Perm (List.range' 1 65535)
  ordered : ports.Pairwise (Precedes center)

theorem Precedes.asymm {center : Int} {first second : Nat} (before : Precedes center first second) :
    ¬ Precedes center second first := by
  unfold Precedes at before ⊢
  omega

/-- There is only one such list. -/
theorem IsPriorityOrder.unique {center : Int} {ports others : List Nat}
    (order : IsPriorityOrder center ports) (other : IsPriorityOrder center others) :
    ports = others := by
  refine List.Perm.eq_of_pairwise ?_ order.ordered other.ordered
    (order.every.trans other.every.symm)
  exact fun _ _ _ _ before after => absurd after before.asymm

/-! ### The ports near the center -/

/-- What the first two loops offer. -/
def neighbours (center : Int) : List Int :=
  (List.range 4097).flatMap fun d : Nat =>
    if d ≠ 0 then [center - (d : Int), center + (d : Int)] else [center - (d : Int)]

theorem offeredPorts_eq (center : Int) :
    offeredPorts center =
      neighbours center ++ portRange (center - 4096) (center + 4096) ++ portRange 1 65535 := by
  have range : List.range 4097 = List.range 513 ++ List.range' 513 3584 := by
    rw [List.range_eq_range', List.range_eq_range', List.range'_append_1]
  have second : (List.range' 513 3584).flatMap
        (fun d : Nat => [center - (d : Int), center + (d : Int)]) =
      (List.range' 513 3584).flatMap fun d : Nat =>
        if d ≠ 0 then [center - (d : Int), center + (d : Int)] else [center - (d : Int)] := by
    refine List.flatMap_congr fun d member => ?_
    rw [List.mem_range'_1] at member
    rw [if_pos (by omega)]
  rw [offeredPorts, neighbours, second, range, List.flatMap_append]

theorem mem_neighbour {center port : Int} {d : Nat}
    (member : port ∈ if d ≠ 0 then [center - (d : Int), center + (d : Int)]
      else [center - (d : Int)]) :
    (center - port).natAbs = d := by
  split_ifs at member
  all_goals
    simp only [List.mem_cons, List.not_mem_nil, or_false] at member
    omega

theorem mem_neighbours {center port : Int} :
    port ∈ neighbours center ↔ (center - port).natAbs ≤ 4096 := by
  unfold neighbours
  rw [List.mem_flatMap]
  constructor
  · rintro ⟨d, inRange, member⟩
    rw [List.mem_range] at inRange
    rw [mem_neighbour member]
    omega
  · intro near
    refine ⟨(center - port).natAbs, List.mem_range.mpr (by omega), ?_⟩
    split_ifs
    all_goals
      simp only [List.mem_cons, List.not_mem_nil, or_false]
      omega

theorem validPorts_append (first second : List Int) :
    validPorts (first ++ second) = validPorts first ++ validPorts second := by
  simp only [validPorts, List.filter_append, List.map_append]

theorem mem_validPorts_iff {offered : List Int} {port : Nat} :
    port ∈ validPorts offered ↔ (port : Int) ∈ offered ∧ 1 ≤ port ∧ port ≤ 65535 := by
  simp only [validPorts, List.mem_map, List.mem_filter, decide_eq_true_eq]
  constructor
  · rintro ⟨offer, ⟨member, positive, bounded⟩, rfl⟩
    rw [Int.toNat_of_nonneg (by omega)]
    exact ⟨member, by omega, by omega⟩
  · rintro ⟨member, positive, bounded⟩
    exact ⟨port, ⟨member, by unfold ValidPort; omega⟩, Int.toNat_natCast port⟩

/-- The valid ports of a list follow an order if the list does, as far as it is valid. -/
theorem pairwise_validPorts {relation : Nat → Nat → Prop} {offered : List Int}
    (ordered : offered.Pairwise fun first second =>
      ValidPort first → ValidPort second → relation first.toNat second.toNat) :
    (validPorts offered).Pairwise relation := by
  rw [validPorts, List.pairwise_map, List.pairwise_filter]
  simpa only [decide_eq_true_eq] using ordered

theorem portDistance_toNat {center port : Int} (valid : ValidPort port) :
    portDistance center port.toNat = (center - port).natAbs := by
  obtain ⟨positive, _⟩ := valid
  rw [portDistance, Int.toNat_of_nonneg (by omega)]

theorem pairwise_neighbours (center : Int) :
    (validPorts (neighbours center)).Pairwise (Precedes center) := by
  refine pairwise_validPorts (List.pairwise_flatMap.mpr ⟨?_, ?_⟩)
  · intro d inRange
    rw [List.mem_range] at inRange
    split_ifs
    · refine List.pairwise_pair.mpr fun validFirst validSecond => ?_
      rw [Precedes, portDistance_toNat validFirst, portDistance_toNat validSecond]
      obtain ⟨positive, _⟩ := validFirst
      omega
    · exact List.pairwise_singleton _ _
  · refine List.Pairwise.imp_of_mem ?_ List.pairwise_lt_range
    intro d e inRange _ farther first memberFirst second memberSecond validFirst validSecond
    rw [List.mem_range] at inRange
    rw [Precedes, portDistance_toNat validFirst, portDistance_toNat validSecond,
      mem_neighbour memberFirst, mem_neighbour memberSecond]
    omega

theorem pairwise_portRange (start stop : Int) :
    (portRange start stop).Pairwise fun first second => first < second := by
  rw [portRange, List.pairwise_map]
  refine List.pairwise_lt_range.imp fun less => ?_
  omega

/-! ### The candidates follow the order -/

/-- All valid ports in the order in which they are first offered. -/
def distinctOffers (center : Int) : List Nat := (validPorts (offeredPorts center)).eraseDups

/-- The ports that only the last loop offers. -/
def remaining (center : Int) : List Nat :=
  (validPorts (portRange 1 65535)).filter fun port => decide (4096 < portDistance center port)

theorem pairwise_remaining (center : Int) : (remaining center).Pairwise (Precedes center) := by
  refine List.pairwise_filter.mpr (pairwise_validPorts ((pairwise_portRange 1 65535).imp ?_))
  intro first second less validFirst validSecond farFirst farSecond
  rw [decide_eq_true_eq] at farFirst farSecond
  obtain ⟨positive, _⟩ := validFirst
  exact .inr ⟨farFirst, farSecond, by omega⟩

theorem nodup_of_precedes {center : Int} {ports : List Nat}
    (ordered : ports.Pairwise (Precedes center)) : ports.Nodup := by
  refine ordered.imp fun before => ?_
  rintro rfl
  exact before.asymm before

/-- The first two loops and the rest of the last one offer every port once. -/
theorem distinctOffers_eq (center : Int) :
    distinctOffers center = validPorts (neighbours center) ++ remaining center := by
  have again : (validPorts (portRange (center - 4096) (center + 4096))).removeAll
      (validPorts (neighbours center)) = [] := by
    refine List.filter_eq_nil_iff.mpr fun port member => ?_
    obtain ⟨offered, bounds⟩ := mem_validPorts_iff.mp member
    rw [mem_portRange] at offered
    have near : port ∈ validPorts (neighbours center) :=
      mem_validPorts_iff.mpr ⟨mem_neighbours.mpr (by omega), bounds⟩
    simpa using near
  have rest : (validPorts (portRange 1 65535)).removeAll (validPorts (neighbours center) ++
      validPorts (portRange (center - 4096) (center + 4096))) = remaining center := by
    refine List.filter_congr fun port member => ?_
    obtain ⟨_, bounds⟩ := mem_validPorts_iff.mp member
    rw [List.elem_eq_mem, ← decide_not, decide_eq_decide, List.mem_append, mem_validPorts_iff,
      mem_validPorts_iff, mem_neighbours, mem_portRange, portDistance]
    omega
  rw [distinctOffers, offeredPorts_eq, validPorts_append, validPorts_append,
    List.eraseDups_append, List.eraseDups_append, again, rest,
    FirstCome.eraseDups_of_nodup (nodup_of_precedes (pairwise_neighbours center)),
    FirstCome.eraseDups_of_nodup (nodup_of_precedes (pairwise_remaining center)),
    List.eraseDups_nil, List.append_nil]

theorem mem_distinctOffers {center : Int} {port : Nat} :
    port ∈ distinctOffers center ↔ 1 ≤ port ∧ port ≤ 65535 := by
  rw [distinctOffers, List.mem_eraseDups]
  exact ⟨fun member => (mem_validPorts_iff.mp member).2, fun bounds =>
    mem_validPorts center bounds.1 bounds.2⟩

/-- The distinct offers are all ports in the order of priority. -/
theorem isPriorityOrder_distinctOffers (center : Int) :
    IsPriorityOrder center (distinctOffers center) where
  every := by
    refine (List.perm_ext_iff_of_nodup (FirstCome.nodup_eraseDups _) List.nodup_range').mpr ?_
    intro port
    rw [← distinctOffers, mem_distinctOffers, List.mem_range'_1]
    omega
  ordered := by
    rw [distinctOffers_eq, List.pairwise_append]
    refine ⟨pairwise_neighbours center, pairwise_remaining center, ?_⟩
    intro first near second far
    have nearFirst : portDistance center first ≤ 4096 :=
      mem_neighbours.mp (mem_validPorts_iff.mp near).1
    have farSecond := of_decide_eq_true (List.mem_filter.mp far).2
    exact .inl ⟨nearFirst, .inl farSecond⟩

/-- In a first part of the order of priority, no near port that is left out is nearer than one
that is not. -/
theorem IsPriorityOrder.nearest {center : Int} {ports : List Nat}
    (order : IsPriorityOrder center ports) {count included excluded : Nat}
    (taken : included ∈ ports.take count) (valid : 1 ≤ excluded ∧ excluded ≤ 65535)
    (left : excluded ∉ ports.take count) (near : portDistance center excluded ≤ 4096) :
    portDistance center included ≤ portDistance center excluded := by
  have member : excluded ∈ ports := order.every.mem_iff.mpr (List.mem_range'_1.mpr (by omega))
  rw [← List.take_append_drop count ports, List.mem_append] at member
  have before : Precedes center included excluded :=
    order.ordered.rel_of_mem_take_of_mem_drop taken (member.resolve_left left)
  unfold Precedes at before
  omega

theorem candidateCount_eq (count : Int) :
    candidateCount count = if 1 ≤ count ∧ count ≤ 65535 then count.toNat else 65535 := by
  unfold candidateCount
  split_ifs
  all_goals omega

theorem prioritizedPorts_eq_of_valid (center : Int) {count : Int} (asked : ValidPort count) :
    prioritizedPorts center count = (distinctOffers center).take count.toNat := by
  have exactly : candidateCount count = count.toNat :=
    (candidateCount_eq count).trans (if_pos asked)
  rw [prioritizedPorts_eq, ← distinctOffers, exactly]

/-- However many candidates are asked for, they are that many distinct ports, and so all of them
if no smaller number is asked for. -/
theorem prioritizedPorts_cover (center count : Int) :
    (prioritizedPorts center count).length =
        (if 1 ≤ count ∧ count ≤ 65535 then count.toNat else 65535) ∧
      (∀ port ∈ prioritizedPorts center count, 1 ≤ port ∧ port ≤ 65535) ∧
      (prioritizedPorts center count).Nodup ∧
      (¬ (1 ≤ count ∧ count < 65535) →
        (prioritizedPorts center count).Perm (List.range' 1 65535)) := by
  have order := isPriorityOrder_distinctOffers center
  refine ⟨?_, ?_, nodup_prioritizedPorts center count, ?_⟩
  · rw [length_prioritizedPorts, candidateCount_eq]
  · intro port member
    rw [prioritizedPorts_eq, ← distinctOffers] at member
    exact mem_distinctOffers.mp (List.mem_of_mem_take member)
  · intro whole
    have length := order.every.length_eq
    rw [List.length_range'] at length
    rw [prioritizedPorts_eq, ← distinctOffers, List.take_of_length_le]
    · exact order.every
    · rw [length, candidateCount_eq]
      split_ifs
      all_goals omega

/-- The candidates are the first ports of the order of priority. So a shorter list is the first
part of a longer one, and no near port that is left out is nearer than one that is not. -/
theorem prioritizedPorts_prioritize (center : Int) :
    ∃ order, IsPriorityOrder center order ∧
      (∀ other, IsPriorityOrder center other → other = order) ∧
      (∀ count, ValidPort count → prioritizedPorts center count = order.take count.toNat) ∧
      (∀ fewer more, ValidPort fewer → ValidPort more → fewer ≤ more →
        prioritizedPorts center fewer <+: prioritizedPorts center more) ∧
      ∀ count, ValidPort count → ∀ included ∈ prioritizedPorts center count, ∀ excluded : Nat,
        1 ≤ excluded ∧ excluded ≤ 65535 → excluded ∉ prioritizedPorts center count →
        portDistance center excluded ≤ 4096 →
        portDistance center included ≤ portDistance center excluded := by
  have order := isPriorityOrder_distinctOffers center
  refine ⟨_, order, fun other follows => follows.unique order,
    fun count => prioritizedPorts_eq_of_valid center, ?_, ?_⟩
  · intro fewer more validFewer validMore less
    rw [prioritizedPorts_eq_of_valid center validFewer,
      prioritizedPorts_eq_of_valid center validMore]
    exact List.take_prefix_take_left (by omega)
  · intro count asked included taken excluded valid left near
    rw [prioritizedPorts_eq_of_valid center asked] at taken left
    exact order.nearest taken valid left near

end WgMesh.Meshd
