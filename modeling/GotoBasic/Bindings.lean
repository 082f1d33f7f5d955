/-
  Bindings of names, in the order in which the names were first bound.

  * `Bindings.get? bs name`: what `name` is bound to;
  * `Bindings.put bs name a`: binds `name` to `a`, in place of any earlier
    binding.

  Names that are alike (`==`) are one name, spelled as it was bound first.
-/

namespace GotoBasic

/-- Names with what they are bound to; `put` keeps the names distinct. -/
abbrev Bindings (ν α : Type) := List (ν × α)

namespace Bindings

variable {ν α : Type} [BEq ν]

/-- What `name` is bound to. -/
def get? (bs : Bindings ν α) (name : ν) : Option α := bs.lookup name

/-- Binds `name` to `a`. -/
def put (bs : Bindings ν α) (name : ν) (a : α) : Bindings ν α :=
  match bs with
  | [] => [(name, a)]
  | (other, b) :: bs => if other == name then (other, a) :: bs else (other, b) :: put bs name a

theorem get?_cons (b : ν × α) (bs : Bindings ν α) (name : ν) :
    get? (b :: bs) name = if name == b.1 then some b.2 else bs.get? name := by
  rw [get?, List.lookup_cons]
  cases name == b.1 <;> rfl

@[simp] theorem get?_put_self [EquivBEq ν] (bs : Bindings ν α) (name : ν) (a : α) :
    (bs.put name a).get? name = some a := by
  induction bs with
  | nil => simp [put, get?_cons]
  | cons b bs ih =>
    have hcomm : (name == b.1) = (b.1 == name) := BEq.comm
    by_cases h : b.1 == name <;> simp [put, get?_cons, hcomm, h, ih]

theorem get?_put_of_ne [PartialEquivBEq ν] (bs : Bindings ν α) {name other : ν} (a : α)
    (h : (name == other) = false) : (bs.put name a).get? other = bs.get? other := by
  induction bs with
  | nil =>
    rw [BEq.comm] at h
    simp [put, get?_cons, h]
  | cons b bs ih =>
    by_cases hb : b.1 == name
    · have hne : (other == b.1) = false := by rw [BEq.congr_right hb, BEq.comm, h]
      simp [put, get?_cons, hb, hne]
    · simp [put, get?_cons, hb, ih]

end Bindings

end GotoBasic
