import EspAdblocker.Lib.Bytes

/-!
# Searching sorted C strings

`strcmp` orders C strings as lists of unsigned bytes (`strcmp_neg_iff`). A
binary search over an array that a comparison splits into a positive part, the
matches and a negative part finds a match exactly when there is one
(`binarySearch_isSome_iff`); `Bsearch` packages that contract for C strings.
-/

namespace EspAdblocker.Lib

/-! ## The order of `strcmp` -/

/-- A C string as the list of its byte values. -/
def byteValues (s : List Byte) : List Nat := s.map BitVec.toNat

theorem strcmp_neg_iff {s t : List Byte} (hs : NulFree s) (ht : NulFree t) :
    strcmp s t < 0 ↔ byteValues s < byteValues t := by
  induction s generalizing t with
  | nil =>
    cases t with
    | nil => simp [strcmp, byteValues]
    | cons b t =>
      have positive := byte_toNat_pos ht.head
      simp only [strcmp, byteValues, List.map_nil, List.map_cons, List.nil_lt_cons, iff_true]
      omega
  | cons a s ih =>
    cases t with
    | nil =>
      simp only [strcmp, byteValues, List.map_nil, List.map_cons, List.not_lt_nil, iff_false]
      omega
    | cons b t =>
      simp only [byteValues, List.map_cons, List.cons_lt_cons_iff]
      by_cases same : a = b
      · simp [strcmp, same, ih hs.tail ht.tail, byteValues]
      · have differ : a.toNat ≠ b.toNat := fun eq => same (BitVec.eq_of_toNat_eq eq)
        simp only [strcmp, same, if_false, differ, false_and, or_false]
        omega

theorem strcmp_pos_iff {s t : List Byte} (hs : NulFree s) (ht : NulFree t) :
    0 < strcmp s t ↔ byteValues t < byteValues s := by
  rw [← strcmp_neg_iff ht hs, strcmp_swap s t]
  exact Int.neg_neg_iff_pos.symm

theorem strcmp_nonpos_iff {s t : List Byte} (hs : NulFree s) (ht : NulFree t) :
    strcmp s t ≤ 0 ↔ byteValues s ≤ byteValues t := by
  rw [← Int.not_lt, ← not_lt, not_iff_not, strcmp_pos_iff hs ht]

/-! ## Binary search -/

section

variable {α : Type} (cmp : α → Int) (xs : List α)

/-- The loop of a binary search between `lower` and `upper`; `cmp x` is the key
compared with `x`. -/
def binarySearchLoop : Nat → Nat → Nat → Option α
  | 0, _, _ => none
  | fuel + 1, lower, upper =>
    if lower < upper then
      let index := (lower + upper) / 2
      match xs[index]? with
      | none => none
      | some x =>
        if cmp x < 0 then binarySearchLoop fuel lower index
        else if 0 < cmp x then binarySearchLoop fuel (index + 1) upper
        else some x
    else none

/-- Binary search over a whole array. -/
def binarySearch : Option α := binarySearchLoop cmp xs (xs.length + 1) 0 xs.length

variable {cmp xs}

/-- The comparison splits the array: what is above the key stays above it, what
is below it stays below it. -/
structure SplitBy (cmp : α → Int) (xs : List α) : Prop where
  above : xs.Pairwise fun x y => cmp x < 0 → cmp y < 0
  below : xs.Pairwise fun x y => 0 < cmp y → 0 < cmp x

/-- What the loop has excluded: matches left of `lower` and from `upper` on. -/
structure Bounds (cmp : α → Int) (xs : List α) (lower upper : Nat) : Prop where
  inside : upper ≤ xs.length
  left : ∀ i x, xs[i]? = some x → i < lower → 0 < cmp x
  right : ∀ i x, xs[i]? = some x → upper ≤ i → cmp x < 0

theorem binarySearchLoop_isSome_iff (split : SplitBy cmp xs) {fuel lower upper : Nat} (bounds : Bounds cmp xs lower upper)
    (enough : upper - lower < fuel) : (binarySearchLoop cmp xs fuel lower upper).isSome ↔ ∃ x ∈ xs, cmp x = 0 := by
  induction fuel generalizing lower upper with
  | zero => omega
  | succ fuel ih =>
    rw [binarySearchLoop]
    by_cases more : lower < upper
    · rw [if_pos more]
      have here : (lower + upper) / 2 < xs.length := by have := bounds.inside; omega
      simp only [List.getElem?_eq_getElem here]
      by_cases beyond : cmp xs[(lower + upper) / 2] < 0
      · rw [if_pos beyond]
        refine ih ⟨by omega, bounds.left, fun i x at_i past => ?_⟩ (by omega)
        obtain ⟨hi, rfl⟩ := List.getElem?_eq_some_iff.mp at_i
        rcases Nat.lt_or_eq_of_le past with later | rfl
        · exact List.pairwise_iff_getElem.mp split.above _ _ here hi later beyond
        · exact beyond
      · rw [if_neg beyond]
        by_cases under : 0 < cmp xs[(lower + upper) / 2]
        · rw [if_pos under]
          refine ih ⟨bounds.inside, fun i x at_i before => ?_, bounds.right⟩ (by omega)
          obtain ⟨hi, rfl⟩ := List.getElem?_eq_some_iff.mp at_i
          rcases Nat.lt_or_eq_of_le (Nat.le_of_lt_succ before) with earlier | rfl
          · exact List.pairwise_iff_getElem.mp split.below _ _ hi here earlier under
          · exact under
        · rw [if_neg under]
          exact iff_of_true rfl ⟨_, List.getElem_mem here, by omega⟩
    · rw [if_neg more]
      apply iff_of_false (by simp)
      rintro ⟨x, member, zero⟩
      obtain ⟨i, hi, rfl⟩ := List.mem_iff_getElem.mp member
      have at_i := List.getElem?_eq_getElem hi
      by_cases left : i < lower
      · have := bounds.left i _ at_i left; omega
      · have := bounds.right i _ at_i (by omega); omega

/-- **A binary search finds a match exactly when there is one.** -/
theorem binarySearch_isSome_iff (split : SplitBy cmp xs) :
    (binarySearch cmp xs).isSome ↔ ∃ x ∈ xs, cmp x = 0 := by
  refine binarySearchLoop_isSome_iff split ⟨Nat.le_refl _, fun _ _ _ none => by omega, fun i x at_i past => ?_⟩ (by omega)
  rw [List.getElem?_eq_none past] at at_i
  cases at_i

end

/-! ## The contract of `bsearch` -/

/-- `bsearch` over an array of C strings with `strcmp`: in a sorted array it
finds an equal element exactly when there is one. -/
structure Bsearch where
  run : (key : List Byte) → (xs : List (List Byte)) → Option (List Byte)
  found_iff : ∀ key xs, NulFree key → (∀ x ∈ xs, NulFree x) → xs.Pairwise (fun x y => strcmp x y ≤ 0) →
    ((run key xs).isSome ↔ ∃ x ∈ xs, strcmp key x = 0)

/-- A sorted array is split by every key. -/
theorem splitBy_strcmp {key : List Byte} {xs : List (List Byte)} (hkey : NulFree key) (hxs : ∀ x ∈ xs, NulFree x)
    (sorted : xs.Pairwise fun x y => strcmp x y ≤ 0) : SplitBy (strcmp key) xs := by
  have order : ∀ {x y}, x ∈ xs → y ∈ xs → strcmp x y ≤ 0 → byteValues x ≤ byteValues y := fun hx hy le =>
    (strcmp_nonpos_iff (hxs _ hx) (hxs _ hy)).mp le
  constructor
  · refine sorted.imp_of_mem fun {x y} hx hy le above => ?_
    rw [strcmp_neg_iff hkey (hxs x hx)] at above
    exact (strcmp_neg_iff hkey (hxs y hy)).mpr (above.trans_le (order hx hy le))
  · refine sorted.imp_of_mem fun {x y} hx hy le below => ?_
    rw [strcmp_pos_iff hkey (hxs y hy)] at below
    exact (strcmp_pos_iff hkey (hxs x hx)).mpr ((order hx hy le).trans_lt below)

/-- Binary search keeps the contract. -/
def Bsearch.binary : Bsearch where
  run key xs := binarySearch (strcmp key) xs
  found_iff _ _ hkey hxs sorted := binarySearch_isSome_iff (splitBy_strcmp hkey hxs sorted)

end EspAdblocker.Lib
