/-
This file models `prioritizedPorts`, the candidate list of the blind scan.

The source walks over four ranges of ports and keeps those that are valid, new
and still fit; a bitmap remembers the ports that were kept, which are those of
the list so far. This is a bounded first-come store of ports, so the candidates
are the first distinct valid ports that were offered. The last range offers every
port, which is why the list is as long as asked for.
-/

import WgMesh.Store.FirstCome

namespace WgMesh.Meshd

/-- A UDP port that can be dialed. -/
def ValidPort (port : Int) : Prop := 1 ≤ port ∧ port ≤ 65535

instance (port : Int) : Decidable (ValidPort port) := inferInstanceAs (Decidable (_ ∧ _))

/-- The closure `add` of `prioritizedPorts`. -/
def addPort (count : Nat) (out : List Nat) (port : Int) : List Nat :=
  if ValidPort port ∧ port.toNat ∉ out ∧ out.length < count then out ++ [port.toNat] else out

/-- The ports `from .. to`. -/
def portRange (start stop : Int) : List Int :=
  (List.range (stop - start + 1).toNat).map fun offset : Nat => start + (offset : Int)

/-- The ports the loops of `prioritizedPorts` pass to `add`, in order. -/
def offeredPorts (center : Int) : List Int :=
  ((List.range 513).flatMap fun d : Nat =>
    if d ≠ 0 then [center - (d : Int), center + (d : Int)] else [center - (d : Int)]) ++
  ((List.range' 513 3584).flatMap fun d : Nat => [center - (d : Int), center + (d : Int)]) ++
  portRange (center - 4096) (center + 4096) ++
  portRange 1 65535

/-- The number of candidates that is asked for. -/
def candidateCount (count : Int) : Nat :=
  if count ≤ 0 ∨ 65535 < count then 65535 else count.toNat

def prioritizedPorts (center count : Int) : List Nat :=
  (offeredPorts center).foldl (addPort (candidateCount count)) []

/-! ### The candidates are the first distinct ports -/

/-- The valid ports among those offered. -/
def validPorts (offered : List Int) : List Nat :=
  (offered.filter fun port => decide (ValidPort port)).map Int.toNat

theorem foldl_addPort (count : Nat) (offered : List Int) (out : List Nat) :
    offered.foldl (addPort count) out =
      (validPorts offered).foldl (FirstCome.accept count) out := by
  induction offered generalizing out with
  | nil => rfl
  | cons port rest inductionHypothesis =>
    rw [List.foldl_cons, inductionHypothesis, validPorts, validPorts]
    by_cases valid : ValidPort port
    · rw [List.filter_cons_of_pos (by simpa using valid), List.map_cons, List.foldl_cons]
      congr 1
      unfold addPort FirstCome.accept
      by_cases known : port.toNat ∈ out
      · simp [known]
      · simp [known, valid]
    · rw [List.filter_cons_of_neg (by simpa using valid)]
      congr 1
      exact if_neg fun conditions => valid conditions.1

/-- The candidates are the first distinct valid ports that were offered. -/
theorem prioritizedPorts_eq (center count : Int) :
    prioritizedPorts center count =
      (validPorts (offeredPorts center)).eraseDups.take (candidateCount count) := by
  rw [prioritizedPorts, foldl_addPort, FirstCome.foldl_accept_eq]

theorem nodup_prioritizedPorts (center count : Int) : (prioritizedPorts center count).Nodup := by
  rw [prioritizedPorts_eq]
  exact (FirstCome.nodup_eraseDups _).sublist (List.take_sublist _ _)

theorem validPort_of_mem_prioritizedPorts {center count : Int} {port : Nat}
    (member : port ∈ prioritizedPorts center count) : ValidPort port := by
  rw [prioritizedPorts_eq] at member
  obtain ⟨offered, among, rfl⟩ :=
    List.mem_map.mp (List.mem_eraseDups.mp (List.mem_of_mem_take member))
  have valid := of_decide_eq_true (List.mem_filter.mp among).2
  rwa [Int.toNat_of_nonneg (by unfold ValidPort at valid; omega)]

theorem mem_portRange {start stop port : Int} :
    port ∈ portRange start stop ↔ start ≤ port ∧ port ≤ stop := by
  simp only [portRange, List.mem_map, List.mem_range]
  constructor
  · rintro ⟨offset, inRange, rfl⟩
    omega
  · intro inRange
    exact ⟨(port - start).toNat, by omega, by omega⟩

/-- Every port is offered. -/
theorem mem_validPorts (center : Int) {port : Nat} (positive : 1 ≤ port) (bounded : port ≤ 65535) :
    port ∈ validPorts (offeredPorts center) := by
  refine List.mem_map.mpr ⟨port, List.mem_filter.mpr ⟨?_, ?_⟩, Int.toNat_natCast port⟩
  · exact List.mem_append_right _ (mem_portRange.mpr (by omega))
  · exact decide_eq_true (by unfold ValidPort; omega)

theorem candidateCount_le (count : Int) : candidateCount count ≤ 65535 := by
  unfold candidateCount
  split
  · exact le_refl _
  · omega

/-- The list is as long as asked for. -/
theorem length_prioritizedPorts (center count : Int) :
    (prioritizedPorts center count).length = candidateCount count := by
  have every : (List.range' 1 65535).length ≤
      (validPorts (offeredPorts center)).eraseDups.length := by
    refine (List.Nodup.subperm List.nodup_range' ?_).length_le
    intro port member
    rw [List.mem_range'_1] at member
    exact List.mem_eraseDups.mpr (mem_validPorts center (by omega) (by omega))
  rw [List.length_range'] at every
  have bounded := candidateCount_le count
  rw [prioritizedPorts_eq, List.length_take]
  omega

/-- The center is the first port that is offered. -/
theorem offeredPorts_cons (center : Int) : ∃ rest, offeredPorts center = center :: rest := by
  unfold offeredPorts
  rw [List.range_succ_eq_map, List.flatMap_cons]
  simp only [ne_eq, not_true, if_false, Nat.cast_zero, sub_zero, List.cons_append,
    List.nil_append]
  exact ⟨_, rfl⟩

/-- The scan starts at the center. -/
theorem prioritizedPorts_cons {center : Int} (valid : ValidPort center) (count : Int) :
    ∃ rest, prioritizedPorts center count = center.toNat :: rest := by
  obtain ⟨others, offered⟩ := offeredPorts_cons center
  have positive : ∃ more, candidateCount count = more + 1 := by
    unfold candidateCount
    split
    · exact ⟨65534, rfl⟩
    · exact ⟨count.toNat - 1, by omega⟩
  obtain ⟨more, equal⟩ := positive
  rw [prioritizedPorts_eq, offered, validPorts,
    List.filter_cons_of_pos (by simpa using valid), List.map_cons, List.eraseDups_cons, equal,
    List.take_succ_cons]
  exact ⟨_, rfl⟩

/-- A later candidate is another port than the center. -/
theorem prioritizedPorts_later {center count : Int} (valid : ValidPort center) {index : Nat}
    (later : 1 ≤ index) (asked : index < candidateCount count) :
    ∃ port, (prioritizedPorts center count)[index]? = some port ∧ port ≠ center.toNat := by
  have distinct := nodup_prioritizedPorts center count
  rw [← length_prioritizedPorts center count] at asked
  obtain ⟨rest, ports⟩ := prioritizedPorts_cons valid count
  rw [ports] at distinct asked ⊢
  refine ⟨_, List.getElem?_eq_getElem asked, fun same => ?_⟩
  have first : (center.toNat :: rest)[0] = center.toNat := rfl
  have equal := distinct.getElem_inj_iff.mp (same.trans first.symm)
  omega

/-- A candidate that is already decided by the first ports that are offered. -/
theorem getElem?_prioritizedPorts {center count : Int} {first rest : List Int} {index port : Nat}
    (offered : offeredPorts center = first ++ rest)
    (found : (validPorts first).eraseDups[index]? = some port)
    (asked : index < candidateCount count) :
    (prioritizedPorts center count)[index]? = some port := by
  have split : validPorts (first ++ rest) = validPorts first ++ validPorts rest := by
    simp only [validPorts, List.filter_append, List.map_append]
  rw [prioritizedPorts_eq, offered, split, List.eraseDups_append, List.getElem?_take_of_lt asked]
  exact List.getElem?_append_left (List.getElem?_eq_some_iff.mp found).1 ▸ found

end WgMesh.Meshd
