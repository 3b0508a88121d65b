import Mathlib.Data.List.Induction

/-! Buffers that pieces are written over, each from the start. -/
namespace Machine

variable {α : Type*} {base piece : List α} {pieces : List (List α)} {i : Nat}

def overlay (base piece : List α) : List α := piece ++ base.drop piece.length

/-- The pieces in order, each over what is there. -/
def overlayAll (base : List α) (pieces : List (List α)) : List α := pieces.foldl overlay base

theorem overlayAll_concat : overlayAll base (pieces ++ [piece]) = overlay (overlayAll base pieces) piece := by
  rw [overlayAll, List.foldl_append]
  rfl

theorem length_overlay (fits : piece.length ≤ base.length) : (overlay base piece).length = base.length := by
  rw [overlay, List.length_append, List.length_drop]
  omega

theorem length_overlayAll (fits : ∀ piece ∈ pieces, piece.length ≤ base.length) :
    (overlayAll base pieces).length = base.length := by
  induction pieces using List.reverseRecOn with
  | nil => rfl
  | append_singleton before last ih =>
    have same := ih fun piece member => fits piece (List.mem_append_left _ member)
    rw [overlayAll_concat, length_overlay (by rw [same]; exact fits last (by simp)), same]

theorem getElem?_overlay : (overlay base piece)[i]? = if i < piece.length then piece[i]? else base[i]? := by
  split_ifs with inside
  · exact List.getElem?_append_left inside
  · rw [overlay, List.getElem?_append_right (by omega), List.getElem?_drop]
    congr 1
    omega

/-- A place holds what the last piece that reaches it put there. -/
theorem getElem?_overlayAll : (overlayAll base pieces)[i]? =
    (((pieces.filter (fun piece => i < piece.length)).getLast?).getD base)[i]? := by
  induction pieces using List.reverseRecOn with
  | nil => rfl
  | append_singleton before last ih =>
    rw [overlayAll_concat, getElem?_overlay]
    split_ifs with inside
    · simp [inside]
    · simp [inside, ih]

end Machine
