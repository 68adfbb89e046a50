import Tquic.Ranges

/-!
# Range sets refine sets of numbers

As long as the capacity is not reached, a range set stores the set of numbers that the same
operations give as its maximal intervals, and the queries answer about it.
-/

namespace Tquic.RangeSet

open SortedMap

variable {r : RangeSet} {S : Set ℕ}

inductive Op where
  | insert (start stop : ℕ)
  | remove (start stop : ℕ)
  | removeUntil (elem : ℕ)
  | addElem (elem : ℕ)
  | popMin

def apply (r : RangeSet) : Op → RangeSet
  | .insert start stop => r.insert start stop
  | .remove start stop => r.remove start stop
  | .removeUntil elem => r.removeUntil elem
  | .addElem elem => r.addElem elem
  | .popMin =>
    match r.popMin with
    | some (_, r') => r'
    | none => r

def run (r : RangeSet) (ops : List Op) : RangeSet := ops.foldl apply r

theorem capacity_apply (r : RangeSet) (op : Op) : (r.apply op).capacity = r.capacity := by
  cases op with
  | insert | remove | addElem => rfl
  | removeUntil elem => exact capacity_removeUntil r elem
  | popMin =>
    rw [apply, popMin]
    cases r.set.first? with
    | none => rfl
    | some => rfl

/-! ## The operations on sets -/

def lead (S : Set ℕ) : Set ℕ := {x | x ∈ S ∧ ∀ y ≤ x, (∃ z ∈ S, z ≤ y) → y ∈ S}

def Op.denote (S : Set ℕ) : Op → Set ℕ
  | .insert start stop => S ∪ Set.Ico start stop
  | .remove start stop => S \ Set.Ico start stop
  | .removeUntil elem => S \ Set.Iic elem
  | .addElem elem => Insert.insert elem S
  | .popMin => S \ lead S

def denote (S : Set ℕ) (ops : List Op) : Set ℕ := ops.foldl Op.denote S

/-- The single value that an operation names has a range `[elem, elem + 1)` of `u64`. -/
def Op.Representable : Op → Prop
  | .removeUntil elem => elem < u64Max
  | .addElem elem => elem < u64Max
  | _ => True

def Roomy (r : RangeSet) : List Op → Prop
  | [] => True
  | op :: ops => r.set.length < r.capacity ∧ (r.apply op).Roomy ops

theorem lead_eq {e : ℕ × ℕ} (h : r.peekMin = some e) : lead r.elems = Set.Ico e.1 e.2 := by
  obtain ⟨hlt, hmem, hmin, hout⟩ := peekMin_eq_some h
  ext x
  constructor
  · rintro ⟨hx, hall⟩
    refine ⟨hmin x hx, ?_⟩
    by_contra hge
    apply hout
    exact hall e.2 (not_lt.mp hge) ⟨e.1, hmem e.1 le_rfl hlt, hlt.le⟩
  · rintro ⟨hge, hxlt⟩
    refine ⟨hmem x hge hxlt, ?_⟩
    rintro y hyx ⟨z, hz, hzy⟩
    exact hmem y ((hmin z hz).trans hzy) (hyx.trans_lt hxlt)

theorem elems_apply (hroom : r.set.length < r.capacity) {op : Op} (hop : op.Representable) :
    (r.apply op).elems = op.denote r.elems := by
  ext x
  cases op with
  | insert => exact mem_insert hroom
  | remove => exact mem_remove
  | removeUntil elem =>
    have hmem := @mem_removeUntil r hroom.le elem x hop
    rw [Op.denote, Set.mem_sdiff, Set.mem_Iic, not_le]
    exact hmem
  | addElem elem =>
    have hmem := @mem_addElem r hroom elem x hop
    rw [Op.denote, Set.mem_insert_iff, or_comm]
    exact hmem
  | popMin =>
    cases hpop : r.popMin with
    | none =>
      have hempty := popMin_eq_none_iff.mp hpop
      simp only [apply, hpop]
      exact ⟨fun hx => absurd hx (hempty x), And.left⟩
    | some p =>
      have hpop' : r.popMin = some (p.1, p.2) := hpop
      obtain ⟨hmin, -, hmem⟩ := popMin_eq_some hpop'
      simp only [apply, hpop, Op.denote]
      rw [lead_eq hmin]
      exact hmem x

variable {ops : List Op} {start stop : ℕ} {set : SortedMap ℕ ℕ}

theorem elems_run (hops : ∀ op ∈ ops, op.Representable) (hroom : r.Roomy ops) :
    (r.run ops).elems = denote r.elems ops := by
  induction ops generalizing r with
  | nil => rfl
  | cons op ops ih =>
    obtain ⟨hnow, hlater⟩ := hroom
    have hfirst := elems_apply hnow (hops op (by simp))
    have hrest := ih (fun op' hop' => hops op' (by simp [hop'])) hlater
    rw [run, List.foldl_cons, denote, List.foldl_cons, ← hfirst]
    exact hrest

/-! ## The queries -/

/-- The answer is the first part of the range outside of the set that cannot be
extended within the range; there is none when the set covers the range. -/
def FirstFree (S : Set ℕ) (start stop : ℕ) : Option (ℕ × ℕ) → Prop
  | none => Set.Ico start stop ⊆ S
  | some (a, b) => start ≤ a ∧ a < b ∧ b ≤ stop ∧ Set.Ico start a ⊆ S ∧
      Disjoint (Set.Ico a b) S ∧ (b = stop ∨ b ∈ S)

theorem newEnd_firstFree {a : ℕ} (hstart : start ≤ a) (hstop : a < stop)
    (hgap : ∀ e ∈ r.set, start < e.1 → a < e.1) (hbefore : ∀ e ∈ r.set, e.1 ≤ start → e.2 ≤ a)
    (hcov : Set.Ico start a ⊆ r.elems) :
    FirstFree r.elems start stop (some (a, r.newEnd start stop)) := by
  have hfree : ∀ b, (∀ e ∈ r.set, start < e.1 → b ≤ e.1) → Disjoint (.Ico a b) r.elems := by
    intro b hb
    apply Set.disjoint_left.mpr
    rintro x ⟨hax, hxb⟩ ⟨e, he, hex, hxe⟩
    by_cases hes : e.1 ≤ start
    · have := hbefore e he hes
      omega
    · have := hb e he (not_le.mp hes)
      omega
  cases hnext : r.set.firstAfter start with
  | none =>
    have hnone := firstAfter_eq_none_iff.mp hnext
    simp only [newEnd, hnext]
    refine ⟨hstart, hstop, le_rfl, hcov, hfree stop fun e he hse => ?_, .inl rfl⟩
    exact absurd (hnone e he) (not_le.mpr hse)
  | some e =>
    obtain ⟨he, hse, hmin⟩ := firstAfter_eq_some_iff.mp hnext
    simp only [newEnd, hnext]
    split_ifs with hes
    · refine ⟨hstart, hgap e he hse, hes.le, hcov, hfree e.1 hmin, .inr ?_⟩
      exact ⟨e, he, le_rfl, r.separated.nonempty e he⟩
    · refine ⟨hstart, hstop, le_rfl, hcov, hfree stop fun e' he' hse' => ?_, .inl rfl⟩
      have := hmin e' he' hse'
      omega

theorem filter_firstFree (hlt : start < stop) :
    FirstFree r.elems start stop (r.filter start stop) := by
  rw [filter]
  split_ifs with hempty
  · have hnone := isEmpty_iff.mp hempty
    refine ⟨le_rfl, hlt, le_rfl, by simp, ?_, .inl rfl⟩
    exact Set.disjoint_left.mpr fun x _ hx => hnone x hx
  cases hprev : r.set.lastUpTo start with
  | none =>
    have hnone := lastUpTo_eq_none_iff.mp hprev
    apply newEnd_firstFree le_rfl hlt
    · exact fun e _ h => h
    · exact fun e he h => absurd h (not_le.mpr (hnone e he))
    · simp
  | some e =>
    obtain ⟨he, hle, hmax⟩ := lastUpTo_eq_some_iff.mp hprev
    -- a range that begins up to `start` ends before this one begins, or is this one
    have hends : ∀ e' ∈ r.set, e'.1 ≤ start → e'.2 ≤ e.2 := by
      intro e' he' hle'
      rcases (hmax e' he' hle').lt_or_eq with hlt' | heq
      · have := r.separated.gap e' he' e he hlt'
        have := r.separated.nonempty e he
        omega
      · rw [eq_of_mem he' he heq]
    dsimp only
    split_ifs with hcov hin
    · rintro x ⟨hsx, hxs⟩
      exact ⟨e, he, by omega, by omega⟩
    · apply newEnd_firstFree hin.le (by omega)
      · intro e' he' hse
        exact r.separated.gap e he e' he' (by omega)
      · exact hends
      · rintro x ⟨hsx, hxe⟩
        exact ⟨e, he, by omega, hxe⟩
    · apply newEnd_firstFree le_rfl hlt
      · exact fun e _ h => h
      · intro e' he' hle'
        have := hends e' he' hle'
        omega
      · simp

theorem filter_empty (hle : stop ≤ start) :
    r.filter start stop = none ∨ r.filter start stop = some (start, stop) := by
  rw [filter]
  split_ifs with hempty
  · exact .inr rfl
  have hstop : r.newEnd start stop = stop := by
    cases hnext : r.set.firstAfter start with
    | none => simp only [newEnd, hnext]
    | some =>
      obtain ⟨he, hse, -⟩ := firstAfter_eq_some_iff.mp hnext
      simp only [newEnd, hnext]
      exact if_neg (by omega)
  rw [hstop]
  cases r.set.lastUpTo start with
  | none => exact .inr rfl
  | some e =>
    dsimp only
    by_cases hcov : stop ≤ e.2
    · rw [if_pos hcov]
      exact .inl rfl
    · rw [if_neg hcov, if_neg (by omega)]
      exact .inr rfl

theorem min_eq_some_iff {x : ℕ} : r.min = some x ↔ IsLeast r.elems x := by
  constructor
  · intro h
    exact ⟨(min_eq_some h).1, (min_eq_some h).2⟩
  · rintro ⟨hx, hleast⟩
    cases hmin : r.min with
    | none => exact absurd hx (min_eq_none_iff.mp hmin x)
    | some =>
      obtain ⟨hy, hle⟩ := min_eq_some hmin
      rw [le_antisymm (hle x hx) (hleast hy)]

theorem max_eq_some_iff {x : ℕ} : r.max = some x ↔ IsGreatest r.elems x := by
  constructor
  · intro h
    exact ⟨max_mem h, fun y hy => le_max h hy⟩
  · rintro ⟨hx, hgreatest⟩
    obtain ⟨m, hm⟩ := exists_max hx
    rw [hm, le_antisymm (hgreatest (max_mem hm)) (le_max hm hx)]

/-! ## The refinement -/

/-- The ranges are the maximal intervals of the set, in ascending order, and the queries
answer about the set. -/
structure Agrees (r : RangeSet) (S : Set ℕ) : Prop where
  nonempty : ∀ e ∈ r.iter, e.1 < e.2
  apart : r.iter.Pairwise (fun e e' => e.2 < e'.1)
  points : {x | ∃ e ∈ r.iter, e.1 ≤ x ∧ x < e.2} = S
  contains : ∀ x, r.contains x = true ↔ x ∈ S
  min : ∀ x, r.min = some x ↔ IsLeast S x
  max : ∀ x, r.max = some x ↔ IsGreatest S x
  popped : ∀ e r', r.popMin = some (e, r') → Set.Ico e.1 e.2 = lead S
  filter : ∀ start stop, start < stop → FirstFree S start stop (r.filter start stop)
  filter_empty : ∀ start stop, stop ≤ start →
    r.filter start stop = none ∨ r.filter start stop = some (start, stop)

theorem agrees_elems (r : RangeSet) : r.Agrees r.elems where
  nonempty := r.separated.nonempty
  apart := r.separated.pairwise_gap
  points := rfl
  contains _ := contains_iff
  min _ := min_eq_some_iff
  max _ := max_eq_some_iff
  popped _ _ h := (lead_eq (popMin_eq_some h).1).symm
  filter _ _ hlt := filter_firstFree hlt
  filter_empty _ _ hle := filter_empty hle

/-- A range set and a set stay in agreement along every sequence of operations. -/
theorem run_agrees (r : RangeSet) (ops : List Op) (hops : ∀ op ∈ ops, op.Representable)
    (hroom : r.Roomy ops) : (r.run ops).Agrees (denote r.elems ops) := by
  rw [← elems_run hops hroom]
  exact agrees_elems _

/-! ## Room for every `u64` -/

def Op.InWord : Op → Prop
  | .insert _ stop => stop ≤ u64Max
  | _ => True

theorem Below.apply (h : r.Below u64Max) {op : Op} (hop : op.Representable) (hin : op.InWord) :
    (r.apply op).Below u64Max := by
  have hroom := h.length_lt (by decide)
  have hset := elems_apply hroom hop
  refine ⟨?_, fun x hx => ?_⟩
  · exact (capacity_apply r op).trans h.capacity
  · change x ∈ (r.apply op).elems at hx
    rw [hset] at hx
    cases op with
    | insert =>
      rcases hx with hx | hx
      · exact h.lt x hx
      · exact hx.2.trans_le hin
    | remove | removeUntil | popMin => exact h.lt x hx.1
    | addElem =>
      rcases hx with rfl | hx
      · exact hop
      · exact h.lt x hx

theorem Below.roomy (h : r.Below u64Max) (hops : ∀ op ∈ ops, op.Representable ∧ op.InWord) :
    r.Roomy ops := by
  induction ops generalizing r with
  | nil => trivial
  | cons op ops ih =>
    obtain ⟨hop, hin⟩ := hops op (by simp)
    refine ⟨h.length_lt (by decide), ?_⟩
    apply ih (h.apply hop hin)
    exact fun op' hop' => hops op' (by simp [hop'])

def sampleOps : List Op :=
  [.addElem 3, .insert 7 12, .addElem 12, .remove 9 11, .removeUntil 3, .insert 20 25, .popMin]

theorem run_agrees_sampleOps :
    ((RangeSet.new usizeMax).run sampleOps).Agrees
      (denote (RangeSet.new usizeMax).elems sampleOps) := by
  have hops : ∀ op ∈ sampleOps, op.Representable ∧ op.InWord := by
    simp [sampleOps, Op.Representable, Op.InWord, u64Max]
  apply run_agrees
  · exact fun op hop => (hops op hop).1
  · exact (Below.new u64Max).roomy hops

/-- The largest `u64` cannot be added, removing up to it adds values, and an empty range
outside of the set is not filtered out. -/
theorem largest_value_not_stored :
    (addElem (RangeSet.new usizeMax) u64Max).contains u64Max = false ∧
      (removeUntil (addElem (RangeSet.new usizeMax) 5) u64Max).contains 0 = true ∧
      (RangeSet.new usizeMax).filter 5 5 = some (5, 5) := by
  decide +kernel

/-! ## At the capacity -/

/-- Every number stays or is that of the added range, and what goes is of the first range
of a full set, below all that stays. -/
structure KeepsLargest (set set' : SortedMap ℕ ℕ) (capacity start stop : ℕ) : Prop where
  length_le : set'.length ≤ capacity
  sound : ∀ x ∈ set'.points, x ∈ set.points ∨ start ≤ x ∧ x < stop
  lost : ∀ x, x ∈ set.points ∨ start ≤ x ∧ x < stop → x ∉ set'.points →
    capacity ≤ set.length ∧ (∃ e ∈ set.first?, e.1 ≤ x ∧ x < e.2) ∧ ∀ y ∈ set'.points, x < y

theorem KeepsLargest.of_points {set' : SortedMap ℕ ℕ} {capacity : ℕ} (hlen : set'.length ≤ capacity)
    (hpoints : ∀ x, x ∈ set'.points ↔ x ∈ set.points ∨ start ≤ x ∧ x < stop) :
    KeepsLargest set set' capacity start stop :=
  ⟨hlen, fun x hx => (hpoints x).mp hx, fun x hx hnot => absurd ((hpoints x).mpr hx) hnot⟩

theorem mergeNext_eq_or_lt (fuel : ℕ) (set : SortedMap ℕ ℕ) (start stop : ℕ) :
    mergeNext fuel set start stop = (set, stop) ∨
      (mergeNext fuel set start stop).1.length < set.length := by
  induction fuel generalizing set stop with
  | zero => exact .inl rfl
  | succ fuel ih =>
    cases hnext : set.firstFrom start with
    | none => exact .inl (by simp only [mergeNext, hnext])
    | some r =>
      simp only [mergeNext, hnext]
      by_cases hstop : stop < r.1
      · exact .inl (if_pos hstop)
      rw [if_neg hstop]
      have herase := length_erase_lt (firstFrom_eq_some_iff.mp hnext).1
      rcases ih (set.erase r.1) _ with heq | hlt
      · exact .inr (by rw [heq]; exact herase)
      · exact .inr (hlt.trans herase)

theorem keepsLargest_insertFrom (hset : set.Separated) {capacity : ℕ} (hcap : 0 < capacity)
    (hfit : set.length ≤ capacity) (hlt : start < stop)
    (hbefore : ∀ e ∈ set, e.1 < start → e.2 < start)
    (hfirst : capacity ≤ set.length → ∀ e ∈ set.first?, e.1 ≤ stop) :
    KeepsLargest set (insertFrom set capacity start stop) capacity start stop := by
  by_cases hroom : (mergeNext set.length set start stop).1.length < capacity
  · refine .of_points ?_ (insertFrom_points hset hlt hbefore hroom)
    simp only [insertFrom]
    rw [if_neg (not_le.mpr hroom)]
    exact (SortedMap.length_insert_le _ _ _).trans hroom
  have hspec := mergeNext_spec hset hlt le_rfl
  -- nothing was merged, so that the first range of the set is given up
  rcases mergeNext_eq_or_lt set.length set start stop with heq | hless
  · rw [heq] at hspec hroom
    obtain ⟨e, he⟩ : ∃ e, set.first? = some e := by
      cases hnone : set.first? with
      | none =>
        have hnil : set.entries = [] := List.head?_eq_none_iff.mp hnone
        exact absurd (by rw [SortedMap.length, hnil]; exact hcap) hroom
      | some e => exact ⟨e, rfl⟩
    obtain ⟨hmem, hleast⟩ := SortedMap.first?_eq_some_iff.mp he
    have hend : e.2 < start := by
      rcases hspec.apart hbefore e hmem with hend | hend
      · exact hend
      · exact absurd hend (not_lt.mpr (hfirst (not_lt.mp hroom) e he))
    have hpoints : ∀ x, x ∈ ((set.erase e.1).insert start stop).points ↔
        (x ∈ set.points ∧ ¬ (e.1 ≤ x ∧ x < e.2)) ∨ start ≤ x ∧ x < stop := by
      intro x
      rw [(hset.erase e.1).mem_points_insert hlt fun e' he' =>
        hspec.apart hbefore e' (SortedMap.mem_erase.mp he').1, hset.mem_points_erase hmem]
    have hinsert : insertFrom set capacity start stop = (set.erase e.1).insert start stop := by
      simp only [insertFrom, heq]
      rw [if_pos (not_lt.mp hroom), he]
    rw [hinsert]
    refine ⟨?_, fun x hx => ((hpoints x).mp hx).imp_left And.left, fun x hx hnot => ?_⟩
    · exact (SortedMap.length_insert_le _ _ _).trans
        ((SortedMap.length_erase_lt hmem).trans_le hfit)
    · rw [hpoints] at hnot
      have hin : e.1 ≤ x ∧ x < e.2 := by tauto
      refine ⟨not_lt.mp hroom, ⟨e, he, hin⟩, fun y hy => ?_⟩
      rcases (hpoints y).mp hy with ⟨⟨e', he', hy⟩, hout⟩ | hy
      · have hne : e.1 ≠ e'.1 := fun h => hout (SortedMap.eq_of_mem hmem he' h ▸ hy)
        have hgap := hset.gap e hmem e' he' ((hleast e' he').lt_of_ne hne)
        omega
      · omega
  · omega

theorem keepsLargest_insert (hcap : 0 < r.capacity) (hfit : r.set.length ≤ r.capacity)
    (hfirst : r.capacity ≤ r.set.length → start < stop → ∀ x ∈ r.min, x ≤ stop) :
    KeepsLargest r.set (r.insert start stop).set r.capacity start stop := by
  change KeepsLargest r.set (insertSet r.set r.capacity start stop) r.capacity start stop
  rcases insertSet_cases r.separated r.capacity start stop with
    ⟨heq, hcov⟩ | ⟨hlt, hbefore, heq⟩ | ⟨e, he, hle, htouch, hstop, heq⟩
  · rw [heq]
    exact .of_points hfit fun x => ⟨.inl, fun h => h.elim id fun hx => hcov x hx.1 hx.2⟩
  · rw [heq]
    refine keepsLargest_insertFrom r.separated hcap hfit hlt hbefore fun hfull e he => ?_
    exact hfirst hfull hlt e.1 (Option.mem_map_of_mem Prod.fst he)
  · rw [heq]
    refine .of_points ?_ (insertFrom_erase_points r.separated hfit he hle htouch hstop)
    have hfrom := length_insertFrom_le (r.separated.erase e.1) r.capacity (by omega : e.1 < stop)
    have herase := length_erase_lt he
    omega

theorem length_removeNext_le (fuel : ℕ) (set : SortedMap ℕ ℕ) (start stop : ℕ) :
    (removeNext fuel set start stop).length ≤ set.length := by
  induction fuel generalizing set with
  | zero => exact le_rfl
  | succ fuel ih =>
    cases hnext : set.firstFrom start with
    | none => simp only [removeNext, hnext, le_refl]
    | some =>
      have herase := SortedMap.length_erase_lt (SortedMap.firstFrom_eq_some_iff.mp hnext).1
      simp only [removeNext, hnext]
      split_ifs
      · exact le_rfl
      · exact (SortedMap.length_insert_le _ _ _).trans herase
      · exact (ih _).trans herase.le

theorem length_cutOut_le {e : ℕ × ℕ} (he : e ∈ set) {n : ℕ} (hfit : set.length ≤ n)
    (hcut : e.1 < start → stop < e.2 → set.length < n) : (cutOut set e start stop).length ≤ n := by
  have herase := SortedMap.length_erase_lt he
  have hinsert : ∀ k v, ((set.erase e.1).insert k v).length ≤ set.length := fun k v =>
    (SortedMap.length_insert_le _ k v).trans herase
  simp only [cutOut]
  split_ifs with hright hleft
  · exact (SortedMap.length_insert_le _ _ _).trans
      ((Nat.succ_le_succ (hinsert _ _)).trans (hcut hleft hright))
  · exact (hinsert _ _).trans hfit
  · exact (hinsert _ _).trans hfit
  · exact herase.le.trans hfit

theorem length_remove_le {n : ℕ} (hfit : r.set.length ≤ n)
    (hcut : start < stop → ∀ e ∈ r.iter, e.1 < start → stop < e.2 → r.set.length < n) :
    (r.remove start stop).set.length ≤ n := by
  change (removeSet r.set start stop).length ≤ n
  have hnext : (removeNext r.set.length r.set start stop).length ≤ n :=
    (length_removeNext_le _ _ _ _).trans hfit
  rw [removeSet]
  split_ifs with htrivial
  · exact hfit
  cases hprev : r.set.lastUpTo start with
  | none => exact hnext
  | some e =>
    have he := (lastUpTo_eq_some_iff.mp hprev).1
    have hlt : start < stop := not_le.mp fun hle => htrivial (.inr hle)
    have hpieces := length_cutOut_le he hfit (hcut hlt e he)
    dsimp only
    split_ifs
    · exact hpieces
    · exact (length_removeNext_le _ _ _ _).trans hpieces
    · exact hnext

/-- While the set is full, no range is added that ends before the first one begins, and no
range is cut in two. -/
def InOrder (r : RangeSet) : Op → Prop
  | .insert start stop => r.capacity ≤ r.set.length → start < stop → ∀ x ∈ r.min, x ≤ stop
  | .addElem elem => elem < u64Max ∧ (r.capacity ≤ r.set.length → ∀ x ∈ r.min, x ≤ elem + 1)
  | .remove start stop => r.capacity ≤ r.set.length → start < stop →
      ∀ e ∈ r.iter, e.1 < start → e.2 ≤ stop
  | .removeUntil elem => elem < u64Max
  | .popMin => True

instance (r : RangeSet) (op : Op) : Decidable (r.InOrder op) := by
  unfold InOrder
  split <;> infer_instance

def AllInOrder (r : RangeSet) : List Op → Prop
  | [] => True
  | op :: ops => r.InOrder op ∧ (r.apply op).AllInOrder ops

theorem length_apply_le (hcap : 0 < r.capacity) (hfit : r.set.length ≤ r.capacity) {op : Op}
    (hop : r.InOrder op) : (r.apply op).set.length ≤ r.capacity := by
  cases op with
  | insert => exact (keepsLargest_insert hcap hfit hop).length_le
  | addElem =>
    refine (keepsLargest_insert hcap hfit fun hfull _ => ?_).length_le
    rw [wrap_succ hop.1]
    exact hop.2 hfull
  | remove =>
    refine length_remove_le hfit fun hlt e he hleft hright => ?_
    exact lt_of_not_ge fun hfull => absurd hright (not_lt.mpr (hop hfull hlt e he hleft))
  | removeUntil => exact (length_removeUntil_le hop r).trans hfit
  | popMin =>
    rw [apply, popMin]
    cases r.set.first? with
    | none => exact hfit
    | some => exact (length_erase_le _ _).trans hfit

theorem length_run_le (hcap : 0 < r.capacity) (hfit : r.set.length ≤ r.capacity)
    (hops : r.AllInOrder ops) :
    (r.run ops).set.length ≤ r.capacity ∧ (r.run ops).capacity = r.capacity := by
  induction ops generalizing r with
  | nil => exact ⟨hfit, rfl⟩
  | cons op ops ih =>
    have hsame := capacity_apply r op
    have hstep := length_apply_le hcap hfit hops.1
    rw [← hsame] at hcap hstep ⊢
    exact ih hcap hstep hops.2

/-- At most as many ranges as the capacity, in every set reached, and the next range takes
at most the place of the one with the smallest numbers. -/
theorem run_keepsLargest {n : ℕ} (hn : 0 < n) {ops : List Op} (hops : (new n).AllInOrder ops) :
    let r := (new n).run ops
    r.set.length ≤ n ∧ ∀ start stop, r.InOrder (.insert start stop) →
      KeepsLargest r.set (r.insert start stop).set n start stop := by
  obtain ⟨hfit, hcap⟩ := length_run_le (r := new n) hn (Nat.zero_le n) hops
  refine ⟨hfit, fun start stop hop => ?_⟩
  have hkeeps := keepsLargest_insert (hcap.symm ▸ hn) (hcap.symm ▸ hfit) hop
  rw [hcap] at hkeeps
  exact hkeeps

theorem run_keepsLargest_three :
    let r := (new 2).run [.addElem 3, .insert 7 9, .remove 8 9, .removeUntil 2]
    r.iter = [(3, 4), (7, 8)] ∧ (r.insert 12 14).iter = [(7, 8), (12, 14)] ∧
      KeepsLargest r.set (r.insert 12 14).set 2 12 14 := by
  refine ⟨by decide +kernel, by decide +kernel, ?_⟩
  refine (run_keepsLargest (n := 2) (by decide) ?_).2 12 14 (by decide +kernel)
  exact ⟨by decide +kernel, by decide +kernel, by decide +kernel, by decide +kernel, trivial⟩

/-- An older range takes the place of a newer one, and a removal gives a full set a range
too many. -/
theorem older_range_evicts :
    let r := (new 2).run [.insert 10 11, .insert 20 25]
    (r.insert 1 2).iter = [(1, 2), (20, 25)] ∧
      (r.remove 22 23).iter = [(10, 11), (20, 22), (23, 25)] := by
  decide +kernel

end Tquic.RangeSet
