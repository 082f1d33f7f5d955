/-
  Names that are bound, and bindings that override others.

  * `isSome_get?_put`: the names that are bound after `put`, where names may be
    alike without being the same;
  * `Bindings.keys`: the names that are bound, in order; `put` keeps them
    distinct (`nodup_put`);
  * `Bindings.override bs cs`: the bindings `bs`, overridden by `cs`;
  * `override_put`: it does not matter whether a name is bound before or after
    that;
  * `override_of_disjoint`, `override_eq_map`: names that are new, and names
    that are bound already.
-/
import GotoBasic.Bindings
import Mathlib.Data.List.Nodup

namespace GotoBasic.Bindings

variable {ν α : Type} {bs cs : Bindings ν α} {name other : ν} {a b : α}

/-- The names that are bound. -/
def keys (bs : Bindings ν α) : List ν := bs.map Prod.fst

@[simp] theorem keys_nil : keys ([] : Bindings ν α) = [] := rfl

@[simp] theorem keys_cons (c : ν × α) : keys (c :: bs) = c.1 :: keys bs := rfl

variable [BEq ν]

/-- The bindings `bs`, overridden by `cs`. -/
def override (bs cs : Bindings ν α) : Bindings ν α := cs.foldl (fun bs c => bs.put c.1 c.2) bs

theorem override_cons (c : ν × α) :
    bs.override (c :: cs) = Bindings.override (bs.put c.1 c.2) cs := rfl

/-! ## Names that are alike -/

theorem get?_congr [PartialEquivBEq ν] (h : (name == other) = true) :
    bs.get? name = bs.get? other := by
  induction bs with
  | nil => rfl
  | cons b bs ih => rw [get?_cons, get?_cons, BEq.congr_left h, ih]

/-- A name is bound if it is like the one that was bound last, or was bound
    before. -/
theorem isSome_get?_put [EquivBEq ν] :
    ((bs.put name a).get? other).isSome = (name == other || (bs.get? other).isSome) := by
  by_cases h : (name == other) = true
  · rw [← get?_congr h]
    simp [h]
  · simp only [Bool.not_eq_true] at h
    rw [get?_put_of_ne bs a h]
    simp [h]

variable [LawfulBEq ν]

/-! ## Binding a name -/

theorem put_of_not_mem (h : name ∉ bs.keys) : bs.put name a = bs ++ [(name, a)] := by
  induction bs with
  | nil => rfl
  | cons c bs ih =>
    simp only [keys_cons, List.mem_cons, not_or] at h
    simp [put, Ne.symm h.1, ih h.2]

theorem keys_put_of_mem (h : name ∈ bs.keys) : (bs.put name a).keys = bs.keys := by
  induction bs with
  | nil => simp at h
  | cons c bs ih =>
    by_cases hc : c.1 = name
    · simp [put, hc]
    · simp [put, hc, ih (by simpa [Ne.symm hc] using h)]

theorem mem_keys_put : other ∈ (bs.put name a).keys ↔ other = name ∨ other ∈ bs.keys := by
  by_cases h : name ∈ bs.keys
  · rw [keys_put_of_mem h]
    exact ⟨.inr, by rintro (rfl | h') <;> assumption⟩
  · simp [put_of_not_mem h, keys, or_comm]

/-- Names stay distinct. -/
theorem nodup_put (h : bs.keys.Nodup) : (bs.put name a).keys.Nodup := by
  by_cases hm : name ∈ bs.keys
  · rwa [keys_put_of_mem hm]
  · have hkeys : (bs.put name a).keys = bs.keys ++ [name] := by simp [put_of_not_mem hm, keys]
    rw [hkeys]
    exact h.append (List.nodup_singleton name) (by simpa using hm)

/-- Of two bindings of a name the later one counts. -/
theorem put_put : (bs.put name a).put name b = bs.put name b := by
  induction bs with
  | nil => simp [put]
  | cons c bs ih => by_cases hc : c.1 = name <;> simp [put, hc, ih]

/-- A name that is bound already may be bound anew before another name. -/
theorem put_comm (hne : name ≠ other) (h : name ∈ bs.keys) :
    (bs.put other b).put name a = (bs.put name a).put other b := by
  induction bs with
  | nil => simp at h
  | cons c bs ih =>
    by_cases hc : c.1 = name
    · simp [put, hc, hne]
    · have := ih (by simpa [Ne.symm hc] using h)
      by_cases ho : c.1 = other <;> simp [put, hc, ho, Ne.symm hne, this]

/-- A name that is bound already keeps its place. -/
theorem put_eq_map (h : bs.keys.Nodup) (hm : name ∈ bs.keys) :
    bs.put name a = bs.map fun c => if c.1 == name then (c.1, a) else c := by
  induction bs with
  | nil => simp at hm
  | cons c bs ih =>
    rw [keys_cons, List.nodup_cons] at h
    by_cases hc : c.1 = name
    · have hsame : ∀ d ∈ bs, (if d.1 == name then (d.1, a) else d) = d := by
        intro d hd
        have hne : d.1 ≠ name := by
          rintro rfl
          exact h.1 (hc ▸ List.mem_map_of_mem hd)
        simp [hne]
      simp [put, hc, List.map_congr_left hsame]
    · simp [put, hc, ih h.2 (by simpa [Ne.symm hc] using hm)]

/-! ## Overriding -/

theorem put_override (h : name ∈ bs.keys) (hc : name ∉ cs.keys) :
    (bs.override cs).put name a = Bindings.override (bs.put name a) cs := by
  induction cs generalizing bs with
  | nil => rfl
  | cons c cs ih =>
    simp only [keys_cons, List.mem_cons, not_or] at hc
    rw [override_cons, override_cons, ih (mem_keys_put.2 (.inr h)) hc.2, put_comm hc.1 h]

/-- **A name may be bound before or after overriding.** -/
theorem override_put (h : cs.keys.Nodup) :
    bs.override (cs.put name a) = (bs.override cs).put name a := by
  induction cs generalizing bs with
  | nil => rfl
  | cons c cs ih =>
    rw [keys_cons, List.nodup_cons] at h
    by_cases hc : c.1 = name
    · subst hc
      rw [put, if_pos (beq_self_eq_true _), override_cons, override_cons,
        put_override (mem_keys_put.2 (.inl rfl)) h.1, put_put]
    · rw [put, if_neg (by simpa using hc), override_cons, override_cons, ih h.2]

theorem override_of_disjoint (h : (keys (bs ++ cs)).Nodup) : bs.override cs = bs ++ cs := by
  induction cs generalizing bs with
  | nil => simp [override]
  | cons c cs ih =>
    have hc : c.1 ∉ bs.keys := by
      intro hc
      simp only [keys, List.map_append, List.map_cons, List.nodup_append] at h
      exact h.2.2 c.1 hc c.1 (by simp) rfl
    have heq : bs ++ c :: cs = (bs ++ [c]) ++ cs := by simp
    rw [override_cons, put_of_not_mem hc, heq, ih (heq ▸ h)]

/-- Names that are bound already keep their places. -/
theorem override_eq_map (h : bs.keys.Nodup) (hc : ∀ c ∈ cs, c.1 ∈ bs.keys ∧ c.2 = a) :
    bs.override cs = bs.map fun b => if cs.keys.contains b.1 then (b.1, a) else b := by
  induction cs generalizing bs with
  | nil => simp [override]
  | cons c cs ih =>
    obtain ⟨hm, rfl⟩ := hc c (by simp)
    rw [override_cons, ih (nodup_put h) fun d hd =>
      ⟨mem_keys_put.2 (.inr (hc d (by simp [hd])).1), (hc d (by simp [hd])).2⟩]
    rw [put_eq_map h hm, List.map_map]
    refine List.map_congr_left fun b _ => ?_
    by_cases hb : b.1 = c.1 <;> simp [hb]

end GotoBasic.Bindings
