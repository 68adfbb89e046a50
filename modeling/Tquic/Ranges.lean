import Tquic.Base.Intervals
import Tquic.Base.Word

/-!
# Range sets

The set of `u64` values that the acknowledgement, retransmission and stream trackers share. Each
operation is written on an ordered map from start to end, as in the source, and packaged with the
proof that it keeps the map separated.
-/

namespace Tquic

open SortedMap

structure RangeSet where
  set : SortedMap ℕ ℕ
  capacity : ℕ
  separated : set.Separated

namespace RangeSet

variable {r : RangeSet} {set : SortedMap ℕ ℕ} {x elem : ℕ} {e : ℕ × ℕ}

def usizeMax : ℕ := 2 ^ 64 - 1

def new (capacity : ℕ) : RangeSet := ⟨SortedMap.empty, capacity, Separated.empty⟩

instance : Inhabited RangeSet := ⟨new usizeMax⟩

def elems (r : RangeSet) : Set ℕ := r.set.points

instance : Membership ℕ RangeSet := ⟨fun r x => x ∈ r.elems⟩

theorem mem_def : x ∈ r ↔ ∃ e ∈ r.set, e.1 ≤ x ∧ x < e.2 := .rfl

@[simp] theorem not_mem_new (capacity x : ℕ) : x ∉ new capacity := by
  simp [mem_def, new]

/-! ## Insertion -/

/-- The `while` loop of `insert`: ranges that start inside `[start, stop]` are
merged into it, one at a time. -/
def mergeNext : ℕ → SortedMap ℕ ℕ → ℕ → ℕ → SortedMap ℕ ℕ × ℕ
  | 0, set, _, stop => (set, stop)
  | fuel + 1, set, start, stop =>
    match set.firstFrom start with
    | none => (set, stop)
    | some r =>
      if stop < r.1 then (set, stop)
      else mergeNext fuel (set.erase r.1) start (max r.2 stop)

/-- The rest of `insert` once the preceding range has been dealt with: merge,
make room, store. -/
def insertFrom (set : SortedMap ℕ ℕ) (capacity start stop : ℕ) : SortedMap ℕ ℕ :=
  let merged := mergeNext set.length set start stop
  let set := if capacity ≤ merged.1.length then
      match merged.1.first? with
      | none => merged.1
      | some e => merged.1.erase e.1
    else merged.1
  set.insert start merged.2

def insertSet (set : SortedMap ℕ ℕ) (capacity start stop : ℕ) : SortedMap ℕ ℕ :=
  if stop ≤ start then set
  else
    match set.lastUpTo start with
    | none => insertFrom set capacity start stop
    | some r =>
      if stop ≤ r.2 then set
      else if start ≤ r.2 then insertFrom (set.erase r.1) capacity r.1 stop
      else insertFrom set capacity start stop

structure MergeSpec (set : SortedMap ℕ ℕ) (start stop : ℕ) (r : SortedMap ℕ ℕ × ℕ) : Prop where
  stop_le : stop ≤ r.2
  subset : ∀ e ∈ r.1, e ∈ set
  after : ∀ e ∈ r.1, start ≤ e.1 → r.2 < e.1
  length_le : r.1.length ≤ set.length
  points : ∀ x, (x ∈ r.1.points ∨ start ≤ x ∧ x < r.2) ↔
    (x ∈ set.points ∨ start ≤ x ∧ x < stop)

variable {start stop capacity : ℕ}

theorem mergeNext_spec (hset : set.Separated) {fuel : ℕ} (hlt : start < stop)
    (hfuel : set.length ≤ fuel) : MergeSpec set start stop (mergeNext fuel set start stop) := by
  induction fuel generalizing set stop with
  | zero =>
    have hnil : set.entries = [] := List.length_eq_zero_iff.mp (Nat.le_zero.mp hfuel)
    have hnone : ∀ e, e ∉ set := by simp [SortedMap.mem_def, hnil]
    exact ⟨le_rfl, fun _ he => he, fun e he => absurd he (hnone e), le_rfl, fun _ => .rfl⟩
  | succ fuel ih =>
    cases hnext : set.firstFrom start with
    | none =>
      simp only [mergeNext, hnext]
      refine ⟨le_rfl, fun _ he => he, fun e he hstart => ?_, le_rfl, fun _ => .rfl⟩
      exact absurd hstart (not_le.mpr (firstFrom_eq_none_iff.mp hnext e he))
    | some r =>
      obtain ⟨hr, hstart, hmin⟩ := firstFrom_eq_some_iff.mp hnext
      simp only [mergeNext, hnext]
      split_ifs with hstop
      · refine ⟨le_rfl, fun _ he => he, fun e he hle => ?_, le_rfl, fun _ => .rfl⟩
        exact hstop.trans_le (hmin e he hle)
      · have hdrop := length_erase_lt hr
        have hlt' : start < max r.2 stop := by omega
        obtain ⟨h₁, h₂, h₃, h₄, h₅⟩ := ih (hset.erase r.1) hlt' (by omega)
        refine ⟨by omega, fun e he => (mem_erase.mp (h₂ e he)).1, h₃, by omega, ?_⟩
        intro x
        rw [h₅]
        -- the merged range is the union of two ranges that meet or touch
        exact hset.erase_or_iff hr (by omega)

theorem MergeSpec.apart {r : SortedMap ℕ ℕ × ℕ} (h : MergeSpec set start stop r)
    (hbefore : ∀ e ∈ set, e.1 < start → e.2 < start) : ∀ e ∈ r.1, e.2 < start ∨ r.2 < e.1 := by
  intro e he
  by_cases hlt : e.1 < start
  · exact .inl (hbefore e (h.subset e he) hlt)
  · exact .inr (h.after e he (not_lt.mp hlt))

section

variable (hset : set.Separated)

include hset

theorem insertFrom_separated (hlt : start < stop)
    (hbefore : ∀ e ∈ set, e.1 < start → e.2 < start) :
    (insertFrom set capacity start stop).Separated := by
  have hspec := mergeNext_spec hset hlt le_rfl
  have hmerged := hset.mono hspec.subset
  have hlt' := hlt.trans_le hspec.stop_le
  simp only [insertFrom]
  split_ifs
  · split
    · exact hmerged.insert hlt' (hspec.apart hbefore)
    · refine (hmerged.erase _).insert hlt' fun e he => ?_
      exact hspec.apart hbefore e (mem_erase.mp he).1
  · exact hmerged.insert hlt' (hspec.apart hbefore)

theorem insertFrom_points (hlt : start < stop)
    (hbefore : ∀ e ∈ set, e.1 < start → e.2 < start)
    (hroom : (mergeNext set.length set start stop).1.length < capacity) (x : ℕ) :
    x ∈ (insertFrom set capacity start stop).points ↔ x ∈ set.points ∨ start ≤ x ∧ x < stop := by
  have hspec := mergeNext_spec hset hlt le_rfl
  simp only [insertFrom]
  rw [if_neg (not_le.mpr hroom), (hset.mono hspec.subset).mem_points_insert
    (hlt.trans_le hspec.stop_le) (hspec.apart hbefore)]
  exact hspec.points x

/-- The three ways `insert` can go: nothing to do, or a merge that starts at the
new range's start or at that of the range before it. -/
theorem insertSet_cases (capacity start stop : ℕ) :
    (insertSet set capacity start stop = set ∧ ∀ x, start ≤ x → x < stop → x ∈ set.points) ∨
      (start < stop ∧ (∀ e ∈ set, e.1 < start → e.2 < start) ∧
        insertSet set capacity start stop = insertFrom set capacity start stop) ∨
      ∃ r ∈ set, r.1 ≤ start ∧ start ≤ r.2 ∧ r.2 < stop ∧
        insertSet set capacity start stop = insertFrom (set.erase r.1) capacity r.1 stop := by
  by_cases hempty : stop ≤ start
  · exact .inl ⟨by simp [insertSet, hempty], fun x h₁ h₂ => by omega⟩
  cases hprev : set.lastUpTo start with
  | none =>
    refine .inr (.inl ⟨by omega, fun e he hlt => ?_, by simp [insertSet, hempty, hprev]⟩)
    have := lastUpTo_eq_none_iff.mp hprev e he
    omega
  | some r =>
    obtain ⟨hr, hle, hmax⟩ := lastUpTo_eq_some_iff.mp hprev
    by_cases hcov : stop ≤ r.2
    · refine .inl ⟨by simp [insertSet, hempty, hprev, hcov], fun x h₁ h₂ => ?_⟩
      exact ⟨r, hr, by omega, by omega⟩
    by_cases htouch : start ≤ r.2
    · exact .inr (.inr ⟨r, hr, hle, htouch, by omega,
        by simp [insertSet, hempty, hprev, hcov, htouch]⟩)
    · refine .inr (.inl ⟨by omega, fun e he hlt => ?_,
        by simp [insertSet, hempty, hprev, hcov, htouch]⟩)
      rcases (hmax e he hlt.le).lt_or_eq with hlt' | heq
      · have := hset.gap e he r hr hlt'
        omega
      · rw [eq_of_mem he hr heq]
        omega

theorem insertSet_separated
    (capacity start stop : ℕ) : (insertSet set capacity start stop).Separated := by
  rcases insertSet_cases hset capacity start stop with
    ⟨heq, -⟩ | ⟨hlt, hbefore, heq⟩ | ⟨r, hr, hle, htouch, hstop, heq⟩
  · rwa [heq]
  · rw [heq]
    exact insertFrom_separated hset hlt hbefore
  · rw [heq]
    refine insertFrom_separated (hset.erase r.1) (by omega) fun e he hlt => ?_
    exact hset.gap e (mem_erase.mp he).1 r hr hlt

theorem insertFrom_erase_points (hfit : set.length ≤ capacity) {r : ℕ × ℕ}
    (hr : r ∈ set) (hle : r.1 ≤ start) (htouch : start ≤ r.2) (hstop : r.2 < stop) (x : ℕ) :
    x ∈ (insertFrom (set.erase r.1) capacity r.1 stop).points ↔
      x ∈ set.points ∨ start ≤ x ∧ x < stop := by
  have hlt : r.1 < stop := by omega
  have hroom := (mergeNext_spec (hset.erase r.1) hlt le_rfl).length_le.trans_lt
    ((length_erase_lt hr).trans_le hfit)
  have hbefore : ∀ e ∈ set.erase r.1, e.1 < r.1 → e.2 < r.1 := fun e he =>
    hset.gap e (mem_erase.mp he).1 r hr
  rw [insertFrom_points (hset.erase r.1) hlt hbefore hroom]
  exact hset.erase_or_iff hr (by omega)

theorem insertSet_points (hroom : set.length < capacity) (start stop x : ℕ) :
    x ∈ (insertSet set capacity start stop).points ↔ x ∈ set.points ∨ start ≤ x ∧ x < stop := by
  rcases insertSet_cases hset capacity start stop with
    ⟨heq, hcov⟩ | ⟨hlt, hbefore, heq⟩ | ⟨r, hr, hle, htouch, hstop, heq⟩
  · rw [heq]
    exact ⟨.inl, fun h => h.elim id fun hx => hcov x hx.1 hx.2⟩
  · have hlen := (mergeNext_spec hset hlt le_rfl).length_le
    rw [heq, insertFrom_points hset hlt hbefore (hlen.trans_lt hroom)]
  · rw [heq, insertFrom_erase_points hset hroom.le hr hle htouch hstop]

end

def insert (r : RangeSet) (start stop : ℕ) : RangeSet :=
  ⟨insertSet r.set r.capacity start stop, r.capacity,
    insertSet_separated r.separated r.capacity start stop⟩

/-- The end of the range is not checked: the largest value has no range. -/
def addElem (r : RangeSet) (elem : ℕ) : RangeSet := r.insert elem (wrap (elem + 1))

/-! ## Removal -/

/-- The `while` loop of `remove`: ranges that start in `[start, stop]` go, but for what the last has
beyond `stop`. -/
def removeNext : ℕ → SortedMap ℕ ℕ → ℕ → ℕ → SortedMap ℕ ℕ
  | 0, set, _, _ => set
  | fuel + 1, set, start, stop =>
    match set.firstFrom start with
    | none => set
    | some r =>
      if stop < r.1 then set
      else if stop < r.2 then (set.erase r.1).insert stop r.2
      else removeNext fuel (set.erase r.1) start stop

/-- The pieces of the range `r` that stay when `[start, stop)` is cut out of it. -/
def cutOut (set : SortedMap ℕ ℕ) (r : ℕ × ℕ) (start stop : ℕ) : SortedMap ℕ ℕ :=
  let set := set.erase r.1
  let set := if r.1 < start then set.insert r.1 start else set
  if stop < r.2 then set.insert stop r.2 else set

def removeSet (set : SortedMap ℕ ℕ) (start stop : ℕ) : SortedMap ℕ ℕ :=
  if set.isEmpty ∨ stop ≤ start then set
  else
    match set.lastUpTo start with
    | none => removeNext set.length set start stop
    | some r =>
      if start < r.2 then
        if stop ≤ r.2 then cutOut set r start stop
        else removeNext (cutOut set r start stop).length (cutOut set r start stop) start stop
      else removeNext set.length set start stop

theorem removeNext_spec (hset : set.Separated) {fuel : ℕ}
    (hbefore : ∀ e ∈ set, e.1 < start → e.2 ≤ start) (hfuel : set.length ≤ fuel) :
    (removeNext fuel set start stop).Separated ∧
      ∀ x, x ∈ (removeNext fuel set start stop).points ↔
        x ∈ set.points ∧ ¬ (start ≤ x ∧ x < stop) := by
  induction fuel generalizing set with
  | zero =>
    have hnil : set.entries = [] := List.length_eq_zero_iff.mp (Nat.le_zero.mp hfuel)
    refine ⟨hset, fun x => ?_⟩
    simp [removeNext, mem_points, SortedMap.mem_def, hnil]
  | succ fuel ih =>
    -- an unchanged map is right when its ranges from `start` on begin after `stop`
    have hsame : (∀ e ∈ set, start ≤ e.1 → stop < e.1) →
        ∀ x, x ∈ set.points ↔ x ∈ set.points ∧ ¬ (start ≤ x ∧ x < stop) := by
      refine fun hafter x => ⟨fun hx => ⟨hx, ?_⟩, And.left⟩
      obtain ⟨e, he, hx⟩ := hx
      by_cases hlt : e.1 < start
      · have := hbefore e he hlt
        omega
      · have := hafter e he (not_lt.mp hlt)
        omega
    cases hnext : set.firstFrom start with
    | none =>
      simp only [removeNext, hnext]
      refine ⟨hset, hsame fun e he hle => ?_⟩
      exact absurd hle (not_le.mpr (firstFrom_eq_none_iff.mp hnext e he))
    | some r =>
      obtain ⟨hr, hstart, hmin⟩ := firstFrom_eq_some_iff.mp hnext
      simp only [removeNext, hnext]
      split_ifs with hstop hlast
      · exact ⟨hset, hsame fun e he hle => hstop.trans_le (hmin e he hle)⟩
      · have hapart := hset.apart_erase hr (not_lt.mp hstop) le_rfl
        refine ⟨(hset.erase r.1).insert hlast hapart, fun x => ?_⟩
        rw [(hset.erase r.1).mem_points_insert hlast hapart, hset.mem_points_erase hr]
        constructor
        · rintro (⟨⟨e, he, hx⟩, hout⟩ | hx)
          · refine ⟨⟨e, he, hx⟩, ?_⟩
            rcases lt_trichotomy e.1 r.1 with hlt | heq | hgt
            · have : ¬ start ≤ e.1 := fun hle => absurd (hmin e he hle) (not_le.mpr hlt)
              have := hbefore e he (not_le.mp this)
              omega
            · rw [eq_of_mem he hr heq] at hx
              exact absurd hx hout
            · omega
          · exact ⟨⟨r, hr, by omega⟩, by omega⟩
        · rintro ⟨hx, hout⟩
          by_cases hxr : r.1 ≤ x ∧ x < r.2
          · exact .inr (by omega)
          · exact .inl ⟨hx, hxr⟩
      · have hdrop := length_erase_lt hr
        obtain ⟨hsep, hpoints⟩ := ih (hset.erase r.1)
          (fun e he => hbefore e (mem_erase.mp he).1) (by omega)
        refine ⟨hsep, fun x => ?_⟩
        rw [hpoints, hset.mem_points_erase hr]
        refine ⟨fun h => ⟨h.1.1, h.2⟩, fun h => ⟨⟨h.1, fun hx => h.2 ?_⟩, h.2⟩⟩
        omega

theorem cutOut_spec (hset : set.Separated) {r : ℕ × ℕ} (hr : r ∈ set) (hlt : start < stop)
    (hle : r.1 ≤ start) (hin : start < r.2) :
    (cutOut set r start stop).Separated ∧
      (∀ x, x ∈ (cutOut set r start stop).points ↔ x ∈ (set.erase r.1).points ∨
        (r.1 ≤ x ∧ x < start ∨ stop ≤ x ∧ x < r.2)) ∧
      ∀ e ∈ cutOut set r start stop, e ∈ set.erase r.1 ∨ e.2 ≤ start ∨ stop ≤ e.1 := by
  -- the piece before the cut
  have hleft : ∃ set' : SortedMap ℕ ℕ,
      (if r.1 < start then (set.erase r.1).insert r.1 start else set.erase r.1) = set' ∧
      set'.Separated ∧ (∀ x, x ∈ set'.points ↔ x ∈ (set.erase r.1).points ∨
        (r.1 ≤ x ∧ x < start)) ∧ ∀ e ∈ set', e ∈ set.erase r.1 ∨ e = (r.1, start) := by
    refine ⟨_, rfl, ?_⟩
    by_cases hpiece : r.1 < start
    · have hapart := hset.apart_erase hr le_rfl hin.le
      rw [if_pos hpiece]
      refine ⟨(hset.erase r.1).insert hpiece hapart, fun x => ?_, fun e he => ?_⟩
      · exact (hset.erase r.1).mem_points_insert hpiece hapart
      · exact (mem_insert.mp he).elim .inr fun h => .inl h.1
    · rw [if_neg hpiece]
      refine ⟨hset.erase r.1, fun x => ⟨.inl, fun h => h.elim id fun hx => by omega⟩,
        fun e he => .inl he⟩
  obtain ⟨set', heq, hsep, hpoints, hmem⟩ := hleft
  simp only [cutOut, heq]
  by_cases hpiece : stop < r.2
  · have hapart : ∀ e ∈ set', e.2 < stop ∨ r.2 < e.1 := by
      intro e he
      rcases hmem e he with he | rfl
      · exact hset.apart_erase hr (hle.trans hlt.le) le_rfl e he
      · exact .inl hlt
    rw [if_pos hpiece]
    refine ⟨hsep.insert hpiece hapart, fun x => ?_, fun e he => ?_⟩
    · rw [hsep.mem_points_insert hpiece hapart, hpoints, or_assoc]
    · rcases mem_insert.mp he with rfl | ⟨he, -⟩
      · exact .inr (.inr le_rfl)
      · exact (hmem e he).imp_right fun heq => .inl (by rw [heq])
  · rw [if_neg hpiece]
    refine ⟨hsep, fun x => ?_, fun e he => (hmem e he).imp_right fun heq => .inl (by rw [heq])⟩
    rw [hpoints]
    refine or_congr_right ⟨.inl, fun h => h.elim id fun hx => by omega⟩

theorem removeSet_spec (hset : set.Separated) (start stop : ℕ) :
    (removeSet set start stop).Separated ∧
      ∀ x, x ∈ (removeSet set start stop).points ↔ x ∈ set.points ∧ ¬ (start ≤ x ∧ x < stop) := by
  by_cases htrivial : set.isEmpty ∨ stop ≤ start
  · simp only [removeSet, if_pos htrivial]
    refine ⟨hset, fun x => ⟨fun hx => ⟨hx, ?_⟩, And.left⟩⟩
    rcases htrivial with hempty | hle
    · obtain ⟨e, he, -⟩ := hx
      exact absurd he (isEmpty_iff.mp hempty e)
    · omega
  have hlt : start < stop := not_le.mp fun hle => htrivial (.inr hle)
  simp only [removeSet, if_neg htrivial]
  cases hprev : set.lastUpTo start with
  | none =>
    refine removeNext_spec hset (fun e he hlt' => ?_) le_rfl
    have := lastUpTo_eq_none_iff.mp hprev e he
    omega
  | some r =>
    obtain ⟨hr, hle, hmax⟩ := lastUpTo_eq_some_iff.mp hprev
    have hbefore : ∀ e ∈ set, e ≠ r → e.1 < start → e.2 ≤ start := by
      intro e he hne hlt'
      have hlt'' : e.1 < r.1 := (hmax e he hlt'.le).lt_of_ne fun heq => hne (eq_of_mem he hr heq)
      exact (hset.gap e he r hr hlt'').le.trans hle
    dsimp only
    by_cases hin : start < r.2
    · obtain ⟨hsep, hpoints, hmem⟩ := cutOut_spec hset hr hlt hle hin
      rw [if_pos hin]
      split_ifs with hlast
      · refine ⟨hsep, fun x => ?_⟩
        rw [hpoints, hset.mem_points_erase hr]
        constructor
        · rintro (⟨⟨e, he, hx⟩, hout⟩ | hx)
          · refine ⟨⟨e, he, hx⟩, ?_⟩
            have hne : e.1 ≠ r.1 := fun heq => hout (eq_of_mem he hr heq ▸ hx)
            rcases lt_or_gt_of_ne hne with hlt' | hgt
            · omega
            · omega
          · exact ⟨⟨r, hr, by omega⟩, by omega⟩
        · rintro ⟨hx, hout⟩
          by_cases hxr : r.1 ≤ x ∧ x < r.2
          · exact .inr (by omega)
          · exact .inl ⟨hx, hxr⟩
      · have hbefore' : ∀ e ∈ cutOut set r start stop, e.1 < start → e.2 ≤ start := by
          intro e he hlt'
          rcases hmem e he with he | hle' | hle'
          · obtain ⟨he, hne⟩ := mem_erase.mp he
            exact hbefore e he (fun heq => hne (by rw [heq])) hlt'
          · exact hle'
          · omega
        obtain ⟨hsep', hpoints'⟩ := removeNext_spec hsep hbefore' le_rfl
        refine ⟨hsep', fun x => ?_⟩
        rw [hpoints', hpoints, hset.mem_points_erase hr]
        have hmem' : r.1 ≤ x ∧ x < r.2 → x ∈ set.points := fun hx => ⟨r, hr, hx⟩
        constructor
        · rintro ⟨⟨hx, -⟩ | hx, hout⟩
          · exact ⟨hx, hout⟩
          · exact ⟨hmem' (by omega), hout⟩
        · rintro ⟨hx, hout⟩
          refine ⟨?_, hout⟩
          by_cases hxr : r.1 ≤ x ∧ x < r.2
          · exact .inr (by omega)
          · exact .inl ⟨hx, hxr⟩
    · rw [if_neg hin]
      refine removeNext_spec hset (fun e he hlt' => ?_) le_rfl
      by_cases heq : e = r
      · rw [heq]
        omega
      · exact hbefore e he heq hlt'

def remove (r : RangeSet) (start stop : ℕ) : RangeSet :=
  ⟨removeSet r.set start stop, r.capacity, (removeSet_spec r.separated start stop).1⟩

def removeElem (r : RangeSet) (elem : ℕ) : RangeSet := r.remove elem (wrap (elem + 1))

def dropRange (r : RangeSet) (start : ℕ) : RangeSet :=
  ⟨r.set.erase start, r.capacity, r.separated.erase start⟩

/-- The body of the loop of `remove_until`: the range goes, except for what it has beyond
the value. -/
def cutUntil (elem : ℕ) (r : RangeSet) (e : ℕ × ℕ) : RangeSet :=
  if wrap (elem + 1) < e.2 then (r.dropRange e.1).insert (wrap (elem + 1)) e.2
  else r.dropRange e.1

def removeUntil (r : RangeSet) (elem : ℕ) : RangeSet :=
  (r.set.keep (· ≤ elem)).entries.foldl (cutUntil elem) r

@[simp] theorem mem_remove {start stop x : ℕ} :
    x ∈ r.remove start stop ↔ x ∈ r ∧ ¬ (start ≤ x ∧ x < stop) :=
  (removeSet_spec r.separated start stop).2 x

theorem mem_insert (hroom : r.set.length < r.capacity) {x : ℕ} :
    x ∈ r.insert start stop ↔ x ∈ r ∨ start ≤ x ∧ x < stop :=
  insertSet_points r.separated hroom start stop x

theorem mem_dropRange (he : e ∈ r.set) : x ∈ r.dropRange e.1 ↔ x ∈ r ∧ ¬ (e.1 ≤ x ∧ x < e.2) :=
  r.separated.mem_points_erase he

theorem wrap_succ {n : ℕ} (h : n < u64Max) : wrap (n + 1) = n + 1 := by
  rw [u64Max] at h
  rw [wrap]
  omega

/-- Making room for the new range only takes another one away. -/
theorem insertFrom_sound (hset : set.Separated) (hlt : start < stop) {x : ℕ}
    (hx : x ∈ (insertFrom set capacity start stop).points) :
    x ∈ set.points ∨ start ≤ x ∧ x < stop := by
  refine ((mergeNext_spec hset hlt le_rfl).points x).mp ?_
  obtain ⟨e, he, hx⟩ := hx
  rcases SortedMap.mem_insert.mp he with rfl | ⟨he, -⟩
  · exact .inr hx
  · refine .inl ⟨e, ?_, hx⟩
    split_ifs at he
    · split at he
      · exact he
      · exact (mem_erase.mp he).1
    · exact he

theorem mem_of_mem_insert {x : ℕ} (h : x ∈ r.insert start stop) : x ∈ r ∨ start ≤ x ∧ x < stop := by
  change x ∈ (insertSet r.set r.capacity start stop).points at h
  rcases insertSet_cases r.separated r.capacity start stop with
    ⟨heq, -⟩ | ⟨hlt, -, heq⟩ | ⟨e, he, hle, htouch, hstop, heq⟩
  all_goals rw [heq] at h
  · exact .inl h
  · exact insertFrom_sound r.separated hlt h
  · have hx := insertFrom_sound (r.separated.erase e.1) (by omega) h
    exact (r.separated.erase_or_iff he (by omega)).mp hx

theorem mem_of_mem_removeUntil {elem x : ℕ} (helem : elem < u64Max) (h : x ∈ r.removeUntil elem) :
    x ∈ r := by
  refine List.foldlRecOn (motive := fun q : RangeSet => x ∈ q → x ∈ r) _ _ id ?_ h
  intro q hq e he hx
  obtain ⟨he, hle⟩ := mem_keep.mp he
  have hdrop : x ∈ q.dropRange e.1 → x ∈ r := fun ⟨e', he', hx⟩ => hq ⟨e', (mem_erase.mp he').1, hx⟩
  rw [cutUntil, wrap_succ helem] at hx
  split_ifs at hx
  · refine (mem_of_mem_insert hx).elim hdrop fun hx => ⟨e, he, ?_⟩
    rw [decide_eq_true_eq] at hle
    omega
  · exact hdrop hx

theorem mem_addElem (hroom : r.set.length < r.capacity) {elem x : ℕ}
    (h : elem < u64Max) : x ∈ r.addElem elem ↔ x ∈ r ∨ x = elem := by
  rw [addElem, mem_insert hroom, wrap_succ h]
  refine or_congr_right ?_
  omega

theorem mem_removeElem {elem x : ℕ} (h : elem < u64Max) :
    x ∈ r.removeElem elem ↔ x ∈ r ∧ x ≠ elem := by
  rw [removeElem, mem_remove, wrap_succ h]
  refine and_congr_right fun _ => ?_
  omega

theorem mem_cutUntil (hroom : r.set.length ≤ r.capacity)
    (helem : elem < u64Max) (he : e ∈ r.set) (hle : e.1 ≤ elem) :
    x ∈ cutUntil elem r e ↔ x ∈ r ∧ ¬ ((e.1 ≤ x ∧ x < e.2) ∧ x ≤ elem) := by
  have hin : e.1 ≤ x ∧ x < e.2 → x ∈ r := fun hx => ⟨e, he, hx⟩
  rw [cutUntil, wrap_succ helem]
  by_cases hlong : elem + 1 < e.2
  · have hdrop : (r.dropRange e.1).set.length < (r.dropRange e.1).capacity :=
      (length_erase_lt he).trans_le hroom
    rw [if_pos hlong, mem_insert hdrop, mem_dropRange he]
    constructor
    · rintro (⟨hx, hout⟩ | hx)
      · exact ⟨hx, fun h => hout h.1⟩
      · exact ⟨hin (by omega), by omega⟩
    · rintro ⟨hx, hout⟩
      by_cases hxe : e.1 ≤ x ∧ x < e.2
      · exact .inr (by omega)
      · exact .inl ⟨hx, hxe⟩
  · rw [if_neg hlong, mem_dropRange he]
    refine and_congr_right fun _ => ?_
    omega

theorem mem_set_cutUntil (helem : elem < u64Max) {e e' : ℕ × ℕ}
    (he : e ∈ r.set) (he' : e' ∈ r.set) (hlt : e.1 < e'.1) (hle : e'.1 ≤ elem) :
    cutUntil elem r e = r.dropRange e.1 ∧ e' ∈ (cutUntil elem r e).set := by
  have hgap := r.separated.gap e he e' he' hlt
  have hcut : cutUntil elem r e = r.dropRange e.1 := by
    rw [cutUntil, wrap_succ helem, if_neg (by omega)]
  rw [hcut]
  exact ⟨rfl, mem_erase.mpr ⟨he', by omega⟩⟩

theorem mem_foldl_cutUntil {l : List (ℕ × ℕ)}
    (helem : elem < u64Max) (hroom : r.set.length ≤ r.capacity)
    (hl : ∀ e ∈ l, e ∈ r.set ∧ e.1 ≤ elem) (hsorted : l.Pairwise (fun a b => a.1 < b.1)) :
    x ∈ l.foldl (cutUntil elem) r ↔ x ∈ r ∧ ¬ ((∃ e ∈ l, e.1 ≤ x ∧ x < e.2) ∧ x ≤ elem) := by
  induction l generalizing r with
  | nil => simp
  | cons e l ih =>
    obtain ⟨hfirst, hsorted⟩ := List.pairwise_cons.mp hsorted
    obtain ⟨he, hle⟩ := hl e (by simp)
    have hcut : ∀ x, x ∈ cutUntil elem r e ↔ x ∈ r ∧ ¬ ((e.1 ≤ x ∧ x < e.2) ∧ x ≤ elem) :=
      fun x => mem_cutUntil hroom helem he hle
    rw [List.foldl_cons]
    cases l with
    | nil =>
      rw [List.foldl_nil, hcut]
      simp
    | cons e' l =>
      -- a range follows, so this one ends before the value
      have hkeep : ∀ e'' ∈ e' :: l, e'' ∈ (cutUntil elem r e).set ∧ e''.1 ≤ elem := by
        intro e'' he''
        obtain ⟨hmem, hle''⟩ := hl e'' (.tail _ he'')
        exact ⟨(mem_set_cutUntil helem he hmem (hfirst e'' he'') hle'').2, hle''⟩
      obtain ⟨hmem, hle'⟩ := hl e' (by simp)
      have hdrop := (mem_set_cutUntil helem he hmem (hfirst e' (by simp)) hle').1
      have hroom' : (cutUntil elem r e).set.length ≤ (cutUntil elem r e).capacity := by
        rw [hdrop]
        exact (length_erase_lt he).le.trans hroom
      have hcons : (∃ e'' ∈ e :: e' :: l, e''.1 ≤ x ∧ x < e''.2) ↔
          (e.1 ≤ x ∧ x < e.2) ∨ ∃ e'' ∈ e' :: l, e''.1 ≤ x ∧ x < e''.2 :=
        List.exists_mem_cons_iff _ _ _
      rw [ih hroom' hkeep hsorted, hcut, hcons, or_and_right, not_or, and_assoc]

theorem mem_removeUntil (hroom : r.set.length ≤ r.capacity) {elem x : ℕ}
    (helem : elem < u64Max) : x ∈ r.removeUntil elem ↔ x ∈ r ∧ elem < x := by
  have hl : ∀ e ∈ (r.set.keep (· ≤ elem)).entries, e ∈ r.set ∧ e.1 ≤ elem := by
    intro e he
    simpa using mem_keep.mp he
  rw [removeUntil, mem_foldl_cutUntil helem hroom hl (r.set.keep _).sorted]
  constructor
  · rintro ⟨⟨e, he, hx⟩, hout⟩
    refine ⟨⟨e, he, hx⟩, ?_⟩
    by_contra hle
    apply hout
    refine ⟨⟨e, mem_keep.mpr ⟨he, ?_⟩, hx⟩, by omega⟩
    simp only [decide_eq_true_eq]
    omega
  · rintro ⟨hx, hlt⟩
    exact ⟨hx, fun h => absurd h.2 (not_le.mpr hlt)⟩

theorem length_insertFrom_le (hset : set.Separated) (capacity : ℕ) (hlt : start < stop) :
    (insertFrom set capacity start stop).length ≤ set.length + 1 := by
  have hspec := mergeNext_spec hset hlt le_rfl
  refine (length_insert_le _ _ _).trans (Nat.succ_le_succ (le_trans ?_ hspec.length_le))
  split_ifs
  · split
    · exact le_rfl
    · exact length_erase_le _ _
  · exact le_rfl

theorem length_insert_le (r : RangeSet) (start stop : ℕ) :
    (r.insert start stop).set.length ≤ r.set.length + 1 := by
  change (insertSet r.set r.capacity start stop).length ≤ _
  rcases insertSet_cases r.separated r.capacity start stop with
    ⟨heq, -⟩ | ⟨hlt, -, heq⟩ | ⟨e, he, hle, htouch, hstop, heq⟩
  · rw [heq]
    exact Nat.le_succ _
  · rw [heq]
    exact length_insertFrom_le r.separated r.capacity hlt
  · rw [heq]
    have hfrom := length_insertFrom_le (r.separated.erase e.1) r.capacity (by omega : e.1 < stop)
    have herase := length_erase_lt he
    omega

theorem length_cutUntil_le (elem : ℕ) (he : e ∈ r.set) :
    (cutUntil elem r e).set.length ≤ r.set.length := by
  have hdrop : (r.dropRange e.1).set.length < r.set.length := length_erase_lt he
  rw [cutUntil]
  split_ifs
  · have hinsert := length_insert_le (r.dropRange e.1) (wrap (elem + 1)) e.2
    omega
  · exact hdrop.le

theorem length_foldl_cutUntil_le {l : List (ℕ × ℕ)}
    (helem : elem < u64Max) (hl : ∀ e ∈ l, e ∈ r.set ∧ e.1 ≤ elem)
    (hsorted : l.Pairwise (fun a b => a.1 < b.1)) :
    (l.foldl (cutUntil elem) r).set.length ≤ r.set.length := by
  induction l generalizing r with
  | nil => exact le_rfl
  | cons e l ih =>
    obtain ⟨hfirst, hsorted⟩ := List.pairwise_cons.mp hsorted
    obtain ⟨⟨he, -⟩, hl⟩ := List.forall_mem_cons.mp hl
    refine (ih ?_ hsorted).trans (length_cutUntil_le elem he)
    intro e' he'
    obtain ⟨hmem, hle⟩ := hl e' he'
    exact ⟨(mem_set_cutUntil helem he hmem (hfirst e' he') hle).2, hle⟩

theorem length_removeUntil_le (helem : elem < u64Max) (r : RangeSet) :
    (r.removeUntil elem).set.length ≤ r.set.length := by
  apply length_foldl_cutUntil_le helem _ (r.set.keep _).sorted
  intro e he
  simpa using mem_keep.mp he

@[simp] theorem capacity_cutUntil (elem : ℕ) (r : RangeSet) (e : ℕ × ℕ) :
    (cutUntil elem r e).capacity = r.capacity := by
  rw [cutUntil]
  split_ifs
  · rfl
  · rfl

@[simp] theorem capacity_removeUntil (r : RangeSet) (elem : ℕ) :
    (r.removeUntil elem).capacity = r.capacity := by
  apply List.foldlRecOn (motive := fun s => capacity s = r.capacity)
  · rfl
  · intro s hs e _
    rw [capacity_cutUntil, hs]

/-! ## Queries -/

def clear (r : RangeSet) : RangeSet := new r.capacity

def isEmpty (r : RangeSet) : Bool := r.set.isEmpty

def len (r : RangeSet) : ℕ := r.set.length

def iter (r : RangeSet) : List (ℕ × ℕ) := r.set.entries

def peekMin (r : RangeSet) : Option (ℕ × ℕ) := r.set.first?

def min (r : RangeSet) : Option ℕ := r.set.first?.map Prod.fst

def max (r : RangeSet) : Option ℕ := r.set.last?.map fun e => e.2 - 1

def popMin (r : RangeSet) : Option ((ℕ × ℕ) × RangeSet) :=
  r.set.first?.map fun e => (e, ⟨r.set.erase e.1, r.capacity, r.separated.erase e.1⟩)

/-- The comparison of a set with a range: the set is that one range. -/
def eqRange (r : RangeSet) (start stop : ℕ) : Bool :=
  r.len = 1 && r.peekMin = some (start, stop)

/-- The range that begins at or before the value, or the one that begins at it, has
the value. -/
def contains (r : RangeSet) (elem : ℕ) : Bool :=
  let has : Option (ℕ × ℕ) → Bool
    | some e => e.1 ≤ elem && elem < e.2
    | none => false
  has (r.set.lastUpTo elem) || has (r.set.firstFrom elem)

/-- The `new_end` of `filter`: where the next range begins, if that is inside. -/
def newEnd (r : RangeSet) (start stop : ℕ) : ℕ :=
  match r.set.firstAfter start with
  | some e => if e.1 < stop then e.1 else stop
  | none => stop

/-- `filter(start..stop)`: the first part of the range that the set does not overlap. -/
def filter (r : RangeSet) (start stop : ℕ) : Option (ℕ × ℕ) :=
  if r.isEmpty then some (start, stop)
  else
    match r.set.lastUpTo start with
    | some e =>
      if stop ≤ e.2 then none
      else if start < e.2 then some (e.2, r.newEnd start stop)
      else some (start, r.newEnd start stop)
    | none => some (start, r.newEnd start stop)

theorem isEmpty_iff : r.isEmpty = true ↔ ∀ x, x ∉ r := by
  rw [isEmpty, SortedMap.isEmpty_iff]
  constructor
  · rintro h x ⟨e, he, -⟩
    exact h e he
  · intro h e he
    exact h e.1 ⟨e, he, le_rfl, r.separated.nonempty e he⟩

theorem peekMin_eq_none_iff : r.peekMin = none ↔ ∀ x, x ∉ r := by
  rw [← isEmpty_iff, isEmpty, SortedMap.isEmpty_iff]
  exact first?_eq_none_iff

theorem peekMin_eq_some (h : r.peekMin = some e) :
    e.1 < e.2 ∧ (∀ x, e.1 ≤ x → x < e.2 → x ∈ r) ∧ (∀ x ∈ r, e.1 ≤ x) ∧ e.2 ∉ r := by
  obtain ⟨he, hmin⟩ := first?_eq_some_iff.mp h
  refine ⟨r.separated.nonempty e he, fun x h₁ h₂ => ⟨e, he, h₁, h₂⟩, ?_, ?_⟩
  · rintro x ⟨e', he', hx⟩
    exact (hmin e' he').trans hx.1
  · rintro ⟨e', he', hle, hlt⟩
    rcases (hmin e' he').lt_or_eq with hlt' | heq
    · have := r.separated.gap e he e' he' hlt'
      omega
    · rw [eq_of_mem he' he heq.symm] at hlt
      omega

theorem popMin_eq_none_iff : r.popMin = none ↔ ∀ x, x ∉ r := by
  rw [← peekMin_eq_none_iff, popMin, Option.map_eq_none_iff, peekMin]

theorem popMin_eq_some {r r' : RangeSet} (h : r.popMin = some (e, r')) :
    r.peekMin = some e ∧ r'.capacity = r.capacity ∧
      ∀ x, x ∈ r' ↔ x ∈ r ∧ ¬ (e.1 ≤ x ∧ x < e.2) := by
  obtain ⟨e', hfirst, heq⟩ := Option.map_eq_some_iff.mp h
  cases heq
  exact ⟨hfirst, rfl, fun x =>
    r.separated.mem_points_erase (first?_eq_some_iff.mp hfirst).1⟩

theorem min_eq_some (h : r.min = some x) : x ∈ r ∧ ∀ y ∈ r, x ≤ y := by
  obtain ⟨e, he, rfl⟩ := Option.map_eq_some_iff.mp h
  obtain ⟨hlt, hmem, hmin, -⟩ := peekMin_eq_some he
  exact ⟨hmem e.1 le_rfl hlt, hmin⟩

theorem min_eq_none_iff : r.min = none ↔ ∀ x, x ∉ r := by
  rw [← peekMin_eq_none_iff, min, Option.map_eq_none_iff, peekMin]

theorem le_max {x y : ℕ} (h : r.max = some x) (hy : y ∈ r) : y ≤ x := by
  obtain ⟨e, he, rfl⟩ := Option.map_eq_some_iff.mp h
  obtain ⟨hmem, hlast⟩ := last?_eq_some_iff.mp he
  obtain ⟨e', he', hle, hlt⟩ := hy
  rcases (hlast e' he').eq_or_lt with heq | hlt'
  · cases r.set.eq_of_mem he' hmem heq
    omega
  · have := r.separated.gap e' he' e hmem hlt'
    have := r.separated.nonempty e hmem
    omega

theorem max_mem (h : r.max = some x) : x ∈ r := by
  obtain ⟨e, he, rfl⟩ := Option.map_eq_some_iff.mp h
  obtain ⟨hmem, -⟩ := last?_eq_some_iff.mp he
  have hlt : e.1 < e.2 := r.separated.nonempty e hmem
  exact ⟨e, hmem, by omega, by omega⟩

theorem exists_max (hx : x ∈ r) : ∃ m, r.max = some m := by
  obtain ⟨e, he, -⟩ := hx
  cases hlast : r.set.last? with
  | none => exact absurd he (last?_eq_none_iff.mp hlast e)
  | some e' => exact ⟨e'.2 - 1, by rw [max, hlast, Option.map_some]⟩

theorem contains_iff : r.contains x = true ↔ x ∈ r := by
  simp only [contains, Bool.or_eq_true]
  constructor
  · rintro (h | h)
    · split at h
      · next e heq =>
          simp only [Bool.and_eq_true, decide_eq_true_eq] at h
          exact ⟨e, (lastUpTo_eq_some_iff.mp heq).1, h⟩
      · cases h
    · split at h
      · next e heq =>
          simp only [Bool.and_eq_true, decide_eq_true_eq] at h
          exact ⟨e, (firstFrom_eq_some_iff.mp heq).1, h⟩
      · cases h
  · rintro ⟨e, he, hle, hlt⟩
    left
    cases hlast : r.set.lastUpTo x with
    | none => exact absurd hle (not_le.mpr (lastUpTo_eq_none_iff.mp hlast e he))
    | some e' =>
      obtain ⟨he', hle', hmax⟩ := lastUpTo_eq_some_iff.mp hlast
      -- the last range up to the value is the one that has it
      rcases (hmax e he hle).eq_or_lt with heq | hlt'
      · rw [eq_of_mem he' he heq.symm]
        simp [hle, hlt]
      · have := r.separated.gap e he e' he' hlt'
        omega

theorem eqRange_iff (h : start < stop) :
    r.eqRange start stop = true ↔ ∀ x, x ∈ r ↔ start ≤ x ∧ x < stop := by
  simp only [eqRange, Bool.and_eq_true, decide_eq_true_eq]
  constructor
  · rintro ⟨hlen, hmin⟩ x
    obtain ⟨e, he⟩ := List.length_eq_one_iff.mp hlen
    obtain rfl : e = (start, stop) := by
      simpa [peekMin, first?, he] using hmin
    rw [mem_def]
    simp [SortedMap.mem_def, he]
  · intro hmem
    have hstart : start ∈ r := (hmem start).mpr ⟨le_rfl, h⟩
    have hmin : r.peekMin = some (start, stop) := by
      cases hpeek : r.peekMin with
      | none => exact absurd hstart (peekMin_eq_none_iff.mp hpeek start)
      | some e =>
        obtain ⟨hlt, hin, hle, hout⟩ := peekMin_eq_some hpeek
        have h₁ := hle start hstart
        have h₂ := (hmem e.1).mp (hin e.1 le_rfl hlt)
        have h₃ : ¬ (start ≤ e.2 ∧ e.2 < stop) := fun hx => hout ((hmem _).mpr hx)
        have h₄ := (hmem (e.2 - 1)).mp (hin (e.2 - 1) (by omega) (by omega))
        rw [show e = (start, stop) from Prod.ext (by omega) (by omega)]
    refine ⟨?_, hmin⟩
    obtain ⟨hfirst, hle⟩ := first?_eq_some_iff.mp hmin
    -- a second range would lie beyond the first
    have honly : ∀ e ∈ r.set, e = (start, stop) := by
      intro e he
      have hne := r.separated.nonempty e he
      have hx := (hmem e.1).mp ⟨e, he, le_rfl, hne⟩
      rcases (hle e he).eq_or_lt with heq | hlt
      · exact eq_of_mem he hfirst heq.symm
      · have := r.separated.gap _ hfirst e he hlt
        omega
    have hnodup : r.set.entries.Nodup := r.set.sorted.imp fun hab heq => absurd hab (by simp [heq])
    rw [len, length]
    have hsub : List.Subperm r.set.entries [(start, stop)] :=
      hnodup.subperm fun e he => by simp [honly e he]
    have hle₁ := hsub.length_le
    have hpos := List.length_pos_of_mem hfirst
    rw [List.length_singleton] at hle₁
    omega

/-! ## Bounds -/

theorem forall_lt_iff (r : RangeSet) (n : ℕ) : (∀ e ∈ r.iter, e.2 ≤ n) ↔ ∀ x ∈ r, x < n := by
  constructor
  · rintro h x ⟨e, he, -, hlt⟩
    exact lt_of_lt_of_le hlt (h e he)
  · intro h e he
    have hlt := r.separated.nonempty e he
    have := h (e.2 - 1) ⟨e, he, by omega, by omega⟩
    omega

theorem forall_le_iff (r : RangeSet) (n : ℕ) : (∀ x ∈ r, x < n + 1) ↔ ∀ x ∈ r, x ≤ n := by
  simp only [Nat.lt_succ_iff]

instance (r : RangeSet) (n : ℕ) : Decidable (∀ x ∈ r, x < n) :=
  decidable_of_iff _ (forall_lt_iff r n)

instance (r : RangeSet) (n : ℕ) : Decidable (∀ x ∈ r, x ≤ n) :=
  decidable_of_iff _ (forall_le_iff r n)

/-! ## Sets that never get full -/

structure Below (r : RangeSet) (n : ℕ) : Prop where
  capacity : r.capacity = usizeMax
  lt : ∀ x ∈ r, x < n

namespace Below

variable {r : RangeSet} {n : ℕ}

theorem new (n : ℕ) : Below (RangeSet.new usizeMax) n :=
  ⟨rfl, fun x hx => absurd hx (not_mem_new usizeMax x)⟩

theorem mono {n' : ℕ} (h : r.Below n) (hle : n ≤ n') : r.Below n' :=
  ⟨h.capacity, fun x hx => (h.lt x hx).trans_le hle⟩

/-- Its ranges lie apart, so they are far fewer than the values below the bound, and none is dropped
for want of room. -/
theorem length_lt (h : r.Below n) (hn : n < 2 ^ 64) : r.set.length < r.capacity := by
  have hle : 2 * r.set.length ≤ n + 1 :=
    r.separated.two_mul_length_le ((forall_lt_iff r n).mpr h.lt)
  rw [h.capacity, usizeMax]
  omega

theorem mem_insert (h : r.Below n) (hn : n < 2 ^ 64) {start stop x : ℕ} :
    x ∈ r.insert start stop ↔ x ∈ r ∨ start ≤ x ∧ x < stop :=
  RangeSet.mem_insert (h.length_lt hn)

theorem insert (h : r.Below n) (hn : n < 2 ^ 64) {start stop : ℕ}
    (hstop : ∀ x, start ≤ x → x < stop → x < n) : (r.insert start stop).Below n :=
  ⟨h.capacity, fun x hx => ((h.mem_insert hn).mp hx).elim (h.lt x) fun hx => hstop x hx.1 hx.2⟩

theorem remove (h : r.Below n) (start stop : ℕ) : (r.remove start stop).Below n :=
  ⟨h.capacity, fun x hx => h.lt x (mem_remove.mp hx).1⟩

end Below

end RangeSet

end Tquic
