import Mathlib

/-!
# Lists of records with a key

A list searched by a key of its elements: the first match is found, changed or removed. When the
keys are distinct, there is only one.
-/

namespace Keyed

open List

variable {α κ : Type*} [DecidableEq κ] (key : α → κ)

def find? (l : List α) (k : κ) : Option α := l.find? fun a => key a = k

def alter (f : α → α) (k : κ) : List α → List α
  | [] => []
  | a :: l => if key a = k then f a :: l else a :: alter f k l

def remove (l : List α) (k : κ) : List α := l.eraseP fun a => key a = k

def Distinct (l : List α) : Prop := (l.map key).Nodup

variable {key} {l : List α} {a b : α} {k : κ}

omit [DecidableEq κ] in
theorem Distinct.eq_of_key (h : Distinct key l) (ha : a ∈ l) (hb : b ∈ l)
    (hkey : key a = key b) : a = b :=
  inj_on_of_nodup_map h ha hb hkey

omit [DecidableEq κ] in
theorem Distinct.tail (h : Distinct key (a :: l)) : Distinct key l :=
  (nodup_cons.mp h).2

omit [DecidableEq κ] in
theorem Distinct.notMem_tail (h : Distinct key (a :: l)) (hb : b ∈ l) : key b ≠ key a := by
  intro hkey
  apply (nodup_cons.mp h).1
  exact mem_map.mpr ⟨b, hb, hkey⟩

omit [DecidableEq κ] in
theorem Distinct.concat (h : Distinct key l) (hnew : ∀ b ∈ l, key b ≠ key a) :
    Distinct key (l ++ [a]) := by
  rw [Distinct, map_append, map_singleton, nodup_append]
  refine ⟨h, nodup_singleton _, ?_⟩
  rintro x hx y hy rfl
  obtain ⟨b, hb, rfl⟩ := mem_map.mp hx
  exact hnew b hb (mem_singleton.mp hy)

omit [DecidableEq κ] in
theorem Distinct.sublist {l' : List α} (h : Distinct key l) (hsub : l'.Sublist l) :
    Distinct key l' :=
  List.Nodup.sublist (hsub.map key) h

theorem find?_some (h : find? key l k = some a) : a ∈ l ∧ key a = k := by
  refine ⟨mem_of_find?_eq_some h, ?_⟩
  simpa using List.find?_some h

theorem find?_eq_none_iff : find? key l k = none ↔ ∀ a ∈ l, key a ≠ k := by
  simp [find?]

theorem Distinct.find?_eq_some_iff (h : Distinct key l) :
    find? key l k = some a ↔ a ∈ l ∧ key a = k := by
  constructor
  · exact find?_some
  · rintro ⟨ha, hk⟩
    cases hfind : find? key l k with
    | none => exact absurd hk (find?_eq_none_iff.mp hfind a ha)
    | some =>
      obtain ⟨hb, hkb⟩ := find?_some hfind
      rw [h.eq_of_key hb ha (hkb.trans hk.symm)]

theorem exists_find? : (∃ a, find? key l k = some a) ↔ ∃ a ∈ l, key a = k := by
  constructor
  · rintro ⟨a, ha⟩
    exact ⟨a, find?_some ha⟩
  · rintro ⟨a, ha, hk⟩
    cases hfind : find? key l k with
    | none => exact absurd hk (find?_eq_none_iff.mp hfind a ha)
    | some b => exact ⟨b, rfl⟩

/-! ## Changing an element -/

variable {f : α → α}

theorem mem_of_mem_alter (h : b ∈ Keyed.alter key f k l) : b ∈ l ∨ ∃ a ∈ l, b = f a := by
  induction l with
  | nil => exact absurd h not_mem_nil
  | cons a l ih =>
    rw [Keyed.alter] at h
    split_ifs at h
    · rcases mem_cons.mp h with rfl | h
      · exact .inr ⟨a, mem_cons_self, rfl⟩
      · exact .inl (mem_cons_of_mem a h)
    · rcases mem_cons.mp h with rfl | h
      · exact .inl mem_cons_self
      · rcases ih h with hmem | ⟨a', ha', rfl⟩
        · exact .inl (mem_cons_of_mem a hmem)
        · exact .inr ⟨a', mem_cons_of_mem a ha', rfl⟩

theorem Distinct.alter_eq_map {f : α → α} (h : Distinct key l) :
    Keyed.alter key f k l = l.map fun a => if key a = k then f a else a := by
  induction l with
  | nil => rfl
  | cons a l ih =>
    rw [Keyed.alter, map_cons]
    split_ifs with hk
    · -- no other element has the key
      have hother : ∀ c ∈ l, (if key c = k then f c else c) = c :=
        fun c hc => if_neg (hk ▸ h.notMem_tail hc)
      rw [map_congr_left hother, map_id']
    · rw [ih h.tail]

theorem Distinct.mem_alter (h : Distinct key l) :
    b ∈ Keyed.alter key f k l ↔ (b ∈ l ∧ key b ≠ k) ∨ ∃ a ∈ l, key a = k ∧ b = f a := by
  rw [h.alter_eq_map, mem_map]
  constructor
  · rintro ⟨a, ha, rfl⟩
    split_ifs with hk
    · exact .inr ⟨a, ha, hk, rfl⟩
    · exact .inl ⟨ha, hk⟩
  · rintro (⟨hb, hne⟩ | ⟨a, ha, hk, rfl⟩)
    · exact ⟨b, hb, if_neg hne⟩
    · exact ⟨a, ha, if_pos hk⟩

/-! ## Removing an element -/

theorem remove_sublist (l : List α) (k : κ) : (remove key l k).Sublist l :=
  eraseP_sublist

theorem Distinct.mem_remove (h : Distinct key l) :
    b ∈ Keyed.remove key l k ↔ b ∈ l ∧ key b ≠ k := by
  have hfilter : Keyed.remove key l k = l.filter (key · ≠ k) := by
    induction l with
    | nil => rfl
    | cons a l ih =>
      rw [Keyed.remove, eraseP_cons]
      by_cases hk : key a = k
      · have hother : ∀ c ∈ l, decide (key c ≠ k) = true :=
          fun c hc => decide_eq_true (hk ▸ h.notMem_tail hc)
        rw [decide_eq_true hk, cond_true, filter_cons_of_neg (by simp [hk]),
          filter_eq_self.mpr hother]
      · rw [decide_eq_false hk, cond_false, filter_cons_of_pos (by simp [hk])]
        exact congrArg (a :: ·) (ih h.tail)
  rw [hfilter, mem_filter, decide_eq_true_eq]

end Keyed
