import Mathlib

/-!
# Ordered maps

An ordered map is a list of entries with strictly increasing keys. Every operation is described by
the entries it leaves, so proofs about clients never look at the list.
-/

universe u v

structure SortedMap (K : Type u) (V : Type v) [LinearOrder K] where
  entries : List (K × V)
  sorted : entries.Pairwise (fun a b => a.1 < b.1)

namespace SortedMap

open List

variable {K : Type u} {V : Type v} [LinearOrder K]

theorem ext_entries {m m' : SortedMap K V} (h : m.entries = m'.entries) : m = m' := by
  cases m
  cases m'
  cases h
  rfl

instance [DecidableEq V] : DecidableEq (SortedMap K V) := fun m m' =>
  decidable_of_iff (m.entries = m'.entries) ⟨ext_entries, fun h => h ▸ rfl⟩

instance : Membership (K × V) (SortedMap K V) := ⟨fun m e => e ∈ m.entries⟩

theorem mem_def {m : SortedMap K V} {e : K × V} : e ∈ m ↔ e ∈ m.entries := .rfl

instance [DecidableEq V] (m : SortedMap K V) (e : K × V) : Decidable (e ∈ m) :=
  inferInstanceAs (Decidable (e ∈ m.entries))

theorem eq_of_mem {m : SortedMap K V} {e e' : K × V} (he : e ∈ m) (he' : e' ∈ m)
    (hkey : e.1 = e'.1) : e = e' := by
  have hkeys : (m.entries.map Prod.fst).Nodup :=
    (pairwise_map.mpr m.sorted).imp (fun h => h.ne)
  exact inj_on_of_nodup_map hkeys he he' hkey

/-! ## Nearest entries in a sorted list -/

section Nearest

variable {l : List (K × V)} {e : K × V}

theorem head?_eq_some_iff (hl : l.Pairwise (fun a b => a.1 < b.1)) :
    l.head? = some e ↔ e ∈ l ∧ ∀ e' ∈ l, e.1 ≤ e'.1 := by
  cases l with
  | nil => simp
  | cons a l =>
    have hle : ∀ e' ∈ a :: l, a.1 ≤ e'.1 := by
      intro e' he'
      rcases mem_cons.mp he' with rfl | he'
      · exact le_rfl
      · exact ((pairwise_cons.mp hl).1 e' he').le
    constructor
    · intro h
      obtain rfl : a = e := by simpa using h
      exact ⟨by simp, hle⟩
    · rintro ⟨hmem, hmin⟩
      rcases mem_cons.mp hmem with rfl | hmem
      · simp
      · have hlt := (pairwise_cons.mp hl).1 e hmem
        exact absurd (hmin a (by simp)) (not_le.mpr hlt)

theorem getLast?_eq_some_iff (hl : l.Pairwise (fun a b => a.1 < b.1)) :
    l.getLast? = some e ↔ e ∈ l ∧ ∀ e' ∈ l, e'.1 ≤ e.1 := by
  induction l with
  | nil => simp
  | cons a l ih =>
    obtain ⟨ha, hl⟩ := pairwise_cons.mp hl
    cases l with
    | nil => simp +contextual [eq_comm]
    | cons b =>
      rw [getLast?_cons_cons, ih hl]
      constructor
      · rintro ⟨hmem, hmax⟩
        refine ⟨.tail _ hmem, ?_⟩
        intro e' he'
        rcases mem_cons.mp he' with rfl | he'
        · exact (ha e hmem).le
        · exact hmax e' he'
      · rintro ⟨hmem, hmax⟩
        rcases mem_cons.mp hmem with rfl | hmem
        · exact absurd (hmax b (by simp)) (not_le.mpr (ha b (by simp)))
        · exact ⟨hmem, fun e' he' => hmax e' (.tail _ he')⟩

end Nearest

variable {m : SortedMap K V} {k : K} {e : K × V} {v : V}

/-! ## Operations -/

def empty : SortedMap K V := ⟨[], List.Pairwise.nil⟩

instance : Inhabited (SortedMap K V) := ⟨empty⟩

@[simp] theorem not_mem_empty (e : K × V) : e ∉ (empty : SortedMap K V) :=
  not_mem_nil

def length (m : SortedMap K V) : ℕ := m.entries.length

def isEmpty (m : SortedMap K V) : Bool := m.entries.isEmpty

theorem isEmpty_iff : m.isEmpty = true ↔ ∀ e, e ∉ m := by
  rw [isEmpty, List.isEmpty_iff, List.eq_nil_iff_forall_not_mem]
  exact .rfl

def keep (m : SortedMap K V) (p : K → Bool) : SortedMap K V :=
  ⟨m.entries.filter (fun e => p e.1), m.sorted.filter _⟩

@[simp] theorem mem_keep {p : K → Bool} : e ∈ m.keep p ↔ e ∈ m ∧ p e.1 = true := by
  simp [mem_def, keep]

def erase (m : SortedMap K V) (k : K) : SortedMap K V := m.keep (fun k' => k' ≠ k)

@[simp] theorem mem_erase : e ∈ m.erase k ↔ e ∈ m ∧ e.1 ≠ k := by
  simp [erase]

def insert (m : SortedMap K V) (k : K) (v : V) : SortedMap K V where
  entries := m.entries.filter (fun e => e.1 < k) ++ (k, v) :: m.entries.filter (fun e => k < e.1)
  sorted := by
    refine List.pairwise_append.mpr ⟨m.sorted.filter _, ?_, ?_⟩
    · refine List.pairwise_cons.mpr ⟨?_, m.sorted.filter _⟩
      intro e he
      simpa using (List.mem_filter.mp he).2
    · intro a ha b hb
      have hak : a.1 < k := by simpa using (List.mem_filter.mp ha).2
      rcases List.mem_cons.mp hb with rfl | hb
      · exact hak
      · exact hak.trans (by simpa using (List.mem_filter.mp hb).2)

@[simp] theorem mem_insert : e ∈ m.insert k v ↔ e = (k, v) ∨ e ∈ m ∧ e.1 ≠ k := by
  simp only [mem_def, insert, mem_append, mem_cons, mem_filter, decide_eq_true_eq, ne_iff_lt_or_gt]
  tauto

def get? (m : SortedMap K V) (k : K) : Option V :=
  (m.entries.find? (fun e => e.1 = k)).map Prod.snd

theorem get?_eq_some_iff : m.get? k = some v ↔ (k, v) ∈ m := by
  constructor
  · intro h
    obtain ⟨e, hfind, rfl⟩ := Option.map_eq_some_iff.mp h
    have hkey : e.1 = k := by simpa using find?_some hfind
    exact hkey ▸ mem_of_find?_eq_some hfind
  · intro h
    have hsome : (m.entries.find? (fun e => e.1 = k)).isSome := by
      simpa using ⟨v, h⟩
    obtain ⟨e, hfind⟩ := Option.isSome_iff_exists.mp hsome
    have hkey : e.1 = k := by simpa using find?_some hfind
    have he : e = (k, v) := eq_of_mem (mem_of_find?_eq_some hfind) h hkey
    simp [get?, hfind, he]

theorem get?_eq_none_iff : m.get? k = none ↔ ∀ v, (k, v) ∉ m := by
  constructor
  · intro h v hv
    rw [get?_eq_some_iff.mpr hv] at h
    cases h
  · intro h
    cases hget : m.get? k with
    | none => rfl
    | some v => exact absurd (get?_eq_some_iff.mp hget) (h v)

def modify (m : SortedMap K V) (k : K) (f : V → V) : SortedMap K V where
  entries := m.entries.map fun e => (e.1, if e.1 = k then f e.2 else e.2)
  sorted := List.pairwise_map.mpr m.sorted

theorem mem_modify {f : V → V} :
    e ∈ m.modify k f ↔ ∃ v, (e.1, v) ∈ m ∧ e.2 = if e.1 = k then f v else v := by
  obtain ⟨k', v'⟩ := e
  simp only [mem_def, modify, mem_map, Prod.exists, Prod.mk.injEq]
  constructor
  · rintro ⟨k'', v, hmem, rfl, rfl⟩
    exact ⟨v, hmem, rfl⟩
  · rintro ⟨v, hmem, hv⟩
    exact ⟨k', v, hmem, rfl, hv.symm⟩

theorem modify_eq_self {f : V → V} (h : m.get? k = some v) (hf : f v = v) : m.modify k f = m := by
  have hmem : (k, v) ∈ m := get?_eq_some_iff.mp h
  refine ext_entries ((map_congr_left fun e he => ?_).trans (map_id _))
  by_cases hk : e.1 = k
  · obtain rfl : e = (k, v) := eq_of_mem he hmem hk
    simp [hf]
  · simp [hk]

theorem get?_congr {m m' : SortedMap K V} (h : ∀ v, (k, v) ∈ m ↔ (k, v) ∈ m') :
    m.get? k = m'.get? k := by
  refine Option.ext fun v => ?_
  rw [get?_eq_some_iff, get?_eq_some_iff, h v]

theorem get?_modify (m : SortedMap K V) (k : K) (f : V → V) (k' : K) :
    (m.modify k f).get? k' = (m.get? k').map fun v => if k' = k then f v else v := by
  refine Option.ext fun v => ?_
  rw [get?_eq_some_iff, mem_modify, Option.map_eq_some_iff]
  simp only [get?_eq_some_iff, eq_comm (a := v)]

theorem get?_insert_self (m : SortedMap K V) (k : K) (v : V) : (m.insert k v).get? k = some v := by
  simp [get?_eq_some_iff]

theorem get?_insert_of_ne (m : SortedMap K V) {k k' : K} (h : k' ≠ k) (v : V) :
    (m.insert k v).get? k' = m.get? k' := by
  refine get?_congr fun v' => ?_
  simp [h]

theorem get?_insert_eq_some {k' : K} {v' : V} :
    (m.insert k v).get? k' = some v' ↔ k' = k ∧ v' = v ∨ m.get? k' = some v' ∧ k' ≠ k := by
  simp only [get?_eq_some_iff, mem_insert, Prod.mk.injEq]

theorem get?_erase_eq_some {k' : K} :
    (m.erase k).get? k' = some v ↔ m.get? k' = some v ∧ k' ≠ k := by
  simp only [get?_eq_some_iff, mem_erase]

theorem get?_erase_self (m : SortedMap K V) (k : K) : (m.erase k).get? k = none := by
  simp [get?_eq_none_iff]

theorem get?_erase_of_ne (m : SortedMap K V) {k k' : K} (h : k' ≠ k) :
    (m.erase k).get? k' = m.get? k' := by
  refine get?_congr fun v => ?_
  simp [h]

def first? (m : SortedMap K V) : Option (K × V) := m.entries.head?

theorem first?_eq_some_iff : m.first? = some e ↔ e ∈ m ∧ ∀ e' ∈ m, e.1 ≤ e'.1 :=
  head?_eq_some_iff m.sorted

theorem first?_eq_none_iff : m.first? = none ↔ ∀ e, e ∉ m := by
  rw [first?, head?_eq_none_iff, eq_nil_iff_forall_not_mem]
  exact .rfl

theorem exists_first_of_mem (he : e ∈ m) : ∃ e' ∈ m, m.first? = some e' := by
  cases hfirst : m.first? with
  | none => exact absurd he (first?_eq_none_iff.mp hfirst e)
  | some e' => exact ⟨e', (first?_eq_some_iff.mp hfirst).1, rfl⟩

def last? (m : SortedMap K V) : Option (K × V) := m.entries.getLast?

theorem last?_eq_some_iff : m.last? = some e ↔ e ∈ m ∧ ∀ e' ∈ m, e'.1 ≤ e.1 :=
  getLast?_eq_some_iff m.sorted

theorem last?_eq_none_iff : m.last? = none ↔ ∀ e, e ∉ m := by
  rw [last?, getLast?_eq_none_iff, eq_nil_iff_forall_not_mem]
  exact .rfl

def lastUpTo (m : SortedMap K V) (k : K) : Option (K × V) := (m.keep (· ≤ k)).last?

theorem lastUpTo_eq_some_iff :
    m.lastUpTo k = some e ↔ e ∈ m ∧ e.1 ≤ k ∧ ∀ e' ∈ m, e'.1 ≤ k → e'.1 ≤ e.1 := by
  simp [lastUpTo, last?_eq_some_iff, and_assoc]

theorem lastUpTo_eq_none_iff : m.lastUpTo k = none ↔ ∀ e ∈ m, k < e.1 := by
  simp [lastUpTo, last?_eq_none_iff]

def rangeFrom (m : SortedMap K V) (k : K) : List (K × V) := (m.keep (k ≤ ·)).entries

@[simp] theorem mem_rangeFrom : e ∈ m.rangeFrom k ↔ e ∈ m ∧ k ≤ e.1 := by
  rw [rangeFrom, ← mem_def, mem_keep, decide_eq_true_eq]

theorem pairwise_rangeFrom (m : SortedMap K V) (k : K) :
    (m.rangeFrom k).Pairwise (fun a b => a.1 < b.1) := (m.keep (k ≤ ·)).sorted

def firstFrom (m : SortedMap K V) (k : K) : Option (K × V) := (m.keep (k ≤ ·)).first?

theorem firstFrom_eq_some_iff :
    m.firstFrom k = some e ↔ e ∈ m ∧ k ≤ e.1 ∧ ∀ e' ∈ m, k ≤ e'.1 → e.1 ≤ e'.1 := by
  simp [firstFrom, first?_eq_some_iff, and_assoc]

theorem firstFrom_eq_none_iff : m.firstFrom k = none ↔ ∀ e ∈ m, e.1 < k := by
  simp [firstFrom, first?_eq_none_iff]

def firstAfter (m : SortedMap K V) (k : K) : Option (K × V) := (m.keep (k < ·)).first?

theorem firstAfter_eq_some_iff :
    m.firstAfter k = some e ↔ e ∈ m ∧ k < e.1 ∧ ∀ e' ∈ m, k < e'.1 → e.1 ≤ e'.1 := by
  simp [firstAfter, first?_eq_some_iff, and_assoc]

theorem firstAfter_eq_none_iff : m.firstAfter k = none ↔ ∀ e ∈ m, e.1 ≤ k := by
  simp [firstAfter, first?_eq_none_iff]

theorem length_erase_lt (he : e ∈ m) : (m.erase e.1).length < m.length := by
  refine length_filter_lt_length_iff_exists.mpr ⟨e, he, ?_⟩
  simp

theorem length_erase_le (m : SortedMap K V) (k : K) : (m.erase k).length ≤ m.length :=
  length_filter_le _ _

theorem length_insert_le (m : SortedMap K V) (k : K) (v : V) :
    (m.insert k v).length ≤ m.length + 1 := by
  have hsplit := length_eq_length_filter_add (l := m.entries) fun e => decide (e.1 < k)
  have hle : (m.entries.filter fun e => decide (k < e.1)).length ≤
      (m.entries.filter fun e => !decide (e.1 < k)).length := by
    apply List.Sublist.length_le
    apply monotone_filter_right
    intro e he
    simpa using (of_decide_eq_true he).le
  simp only [length, insert, length_append, length_cons]
  omega

/-! ## Maps with the same entries -/

theorem nodup_entries (m : SortedMap K V) : m.entries.Nodup :=
  m.sorted.imp fun hlt heq => absurd hlt (by simp [heq])

theorem ext_mem {m m' : SortedMap K V} (h : ∀ e, e ∈ m ↔ e ∈ m') : m = m' := by
  have hperm : m.entries.Perm m'.entries :=
    (perm_ext_iff_of_nodup m.nodup_entries m'.nodup_entries).mpr h
  refine ext_entries (hperm.eq_of_pairwise (fun a b _ _ hab hba => ?_) m.sorted m'.sorted)
  exact absurd hab (not_lt_of_gt hba)

theorem insert_eq_self (h : m.get? k = some v) : m.insert k v = m := by
  have hmem := get?_eq_some_iff.mp h
  refine ext_mem fun e => ?_
  rw [mem_insert]
  constructor
  · rintro (rfl | ⟨he, -⟩)
    · exact hmem
    · exact he
  · intro he
    by_cases hk : e.1 = k
    · exact .inl (eq_of_mem he hmem hk)
    · exact .inr ⟨he, hk⟩

theorem insert_insert (m : SortedMap K V) (k : K) (v v' : V) :
    (m.insert k v).insert k v' = m.insert k v' := by
  refine ext_mem fun e => ?_
  simp only [mem_insert]
  constructor
  · rintro (rfl | ⟨rfl | he, hk⟩)
    · exact .inl rfl
    · exact absurd rfl hk
    · exact .inr ⟨he.1, hk⟩
  · rintro (rfl | he)
    · exact .inl rfl
    · exact .inr ⟨.inr he, he.2⟩

theorem erase_insert (m : SortedMap K V) (k : K) (v : V) : (m.insert k v).erase k = m.erase k := by
  refine ext_mem fun e => ?_
  simp only [mem_erase, mem_insert]
  constructor
  · rintro ⟨rfl | he, hk⟩
    · exact absurd rfl hk
    · exact ⟨he.1, hk⟩
  · rintro ⟨he, hk⟩
    exact ⟨.inr ⟨he, hk⟩, hk⟩

theorem erase_eq_self (h : m.get? k = none) : m.erase k = m := by
  refine ext_mem fun e => ?_
  rw [mem_erase, and_iff_left_iff_imp]
  rintro he rfl
  exact get?_eq_none_iff.mp h e.2 he

/-! ## Values seen through a function -/

section MapValues

variable {W : Type*} (f : V → W)

def mapValues (m : SortedMap K V) : SortedMap K W where
  entries := m.entries.map fun e => (e.1, f e.2)
  sorted := List.pairwise_map.mpr m.sorted

theorem mem_mapValues {m : SortedMap K V} {e : K × W} :
    e ∈ m.mapValues f ↔ ∃ v, (e.1, v) ∈ m ∧ f v = e.2 := by
  obtain ⟨k, w⟩ := e
  simp only [mem_def, mapValues, mem_map, Prod.exists, Prod.mk.injEq]
  constructor
  · rintro ⟨k', v, hmem, rfl, rfl⟩
    exact ⟨v, hmem, rfl⟩
  · rintro ⟨v, hmem, rfl⟩
    exact ⟨k, v, hmem, rfl, rfl⟩

theorem get?_mapValues (m : SortedMap K V) (k : K) : (m.mapValues f).get? k = (m.get? k).map f := by
  refine Option.ext fun w => ?_
  rw [get?_eq_some_iff, mem_mapValues, Option.map_eq_some_iff]
  simp only [get?_eq_some_iff]

theorem mapValues_insert (m : SortedMap K V) (k : K) (v : V) :
    (m.insert k v).mapValues f = (m.mapValues f).insert k (f v) := by
  refine ext_mem fun e => ?_
  simp only [mem_mapValues, mem_insert]
  constructor
  · rintro ⟨v', heq | ⟨hmem, hk⟩, hv'⟩
    · cases heq
      exact .inl (Prod.ext rfl hv'.symm)
    · exact .inr ⟨⟨v', hmem, hv'⟩, hk⟩
  · rintro (rfl | ⟨⟨v', hmem, hv'⟩, hk⟩)
    · exact ⟨v, .inl rfl, rfl⟩
    · exact ⟨v', .inr ⟨hmem, hk⟩, hv'⟩

theorem mapValues_erase (m : SortedMap K V) (k : K) :
    (m.erase k).mapValues f = (m.mapValues f).erase k := by
  refine ext_mem fun e => ?_
  simp only [mem_mapValues, mem_erase]
  exact ⟨fun ⟨v, ⟨hmem, hk⟩, hv⟩ => ⟨⟨v, hmem, hv⟩, hk⟩,
    fun ⟨⟨v, hmem, hv⟩, hk⟩ => ⟨v, ⟨hmem, hk⟩, hv⟩⟩

end MapValues

/-! ## Keys -/

def keys (m : SortedMap K V) : Finset K := (m.entries.map Prod.fst).toFinset

theorem mem_keys {m : SortedMap K V} {k : K} : k ∈ m.keys ↔ ∃ v, m.get? k = some v := by
  simp only [keys, mem_toFinset, mem_map, get?_eq_some_iff]
  constructor
  · rintro ⟨e, he, rfl⟩
    exact ⟨e.2, he⟩
  · rintro ⟨v, hv⟩
    exact ⟨(k, v), hv, rfl⟩

theorem keys_insert (m : SortedMap K V) (k : K) (v : V) :
    (m.insert k v).keys = Insert.insert k m.keys := by
  ext k'
  rw [Finset.mem_insert, mem_keys, mem_keys]
  by_cases h : k' = k
  · subst h
    simp [get?_insert_self]
  · simp [get?_insert_of_ne m h, h]

theorem keys_erase (m : SortedMap K V) (k : K) : (m.erase k).keys = m.keys.erase k := by
  ext k'
  rw [Finset.mem_erase, mem_keys, mem_keys]
  by_cases h : k' = k
  · subst h
    simp [get?_erase_self]
  · simp [get?_erase_of_ne m h, h]

/-! ## Sums and totals -/

theorem modify_const_eq_insert {m : SortedMap K V} {k : K} {v : V} (h : m.get? k = some v)
    (v' : V) : m.modify k (fun _ => v') = m.insert k v' := by
  have hmem : (k, v) ∈ m := get?_eq_some_iff.mp h
  refine ext_mem fun e => ?_
  rw [mem_modify, mem_insert]
  obtain ⟨k', w⟩ := e
  by_cases hk : k' = k
  · subst hk
    simp only [if_true, ne_eq, not_true_eq_false, and_false, or_false, Prod.mk.injEq, true_and]
    exact ⟨fun ⟨_, _, hw⟩ => hw, fun hw => ⟨v, hmem, hw⟩⟩
  · simp [hk]

section Sum

variable {M : Type*} [AddCommMonoid M] (f : K × V → M)

def sum (m : SortedMap K V) : M := (m.entries.map f).sum

theorem sum_insert (m : SortedMap K V) (k : K) (v : V) :
    (m.insert k v).sum f = f (k, v) + (m.erase k).sum f := by
  have hmem : ∀ e, e ∈ (m.insert k v).entries ↔ e ∈ (k, v) :: (m.erase k).entries := by
    intro e
    rw [mem_cons, ← mem_def, ← mem_def, mem_insert, mem_erase]
  have hnodup : ((k, v) :: (m.erase k).entries).Nodup :=
    nodup_cons.mpr ⟨fun h => (mem_erase.mp h).2 rfl, nodup_entries _⟩
  have hperm := (perm_ext_iff_of_nodup (nodup_entries _) hnodup).mpr hmem
  exact (hperm.map f).sum_eq

theorem sum_eq_of_get? {m : SortedMap K V} {k : K} {v : V} (h : m.get? k = some v) :
    m.sum f = f (k, v) + (m.erase k).sum f := by
  conv_lhs => rw [← insert_eq_self h]
  exact sum_insert f m k v

end Sum

section Total

variable (f : V → ℕ)

def total (m : SortedMap K V) : ℕ := (m.entries.map fun e => f e.2).sum

theorem total_insert (m : SortedMap K V) (k : K) (v : V) :
    (m.insert k v).total f = f v + (m.erase k).total f :=
  sum_insert (fun e => f e.2) m k v

theorem total_eq_of_get? {m : SortedMap K V} {k : K} {v : V} (h : m.get? k = some v) :
    m.total f = f v + (m.erase k).total f :=
  sum_eq_of_get? (fun e => f e.2) h

theorem total_insert_new {m : SortedMap K V} {k : K} (h : m.get? k = none) (v : V) :
    (m.insert k v).total f = f v + m.total f := by
  rw [total_insert, erase_eq_self h]

end Total

end SortedMap
