import Mathlib.Data.Nat.Basic
import Signaling.Frames

namespace Signaling
open Machine CText

/-- The branches that copy the rest of their frame with `strncpy(.., buffer+len, strlen(buffer)-len)`:
CALL of `client_handler`, and INVITE and ACCEPT of `server_handler`. -/
inductive CopySite
  | call
  | invite
  | accept
  deriving DecidableEq, Repr

namespace CopySite

def keyword : CopySite → Text
  | .call => "CALL".toList
  | .invite => "INVITE".toList
  | .accept => "ACCEPT".toList

/-- The tests that lead to the branch. -/
def dispatches : CopySite → Text → Bool
  | .call, buffer => !hasKeyword "CLIENT".toList buffer && !hasKeyword "SIGNUP".toList buffer &&
      !hasKeyword "LOGIN".toList buffer && hasKeyword "CALL".toList buffer
  | .invite, buffer => branch buffer = .invite
  | .accept, buffer => branch buffer = .accept

/-- The name that `sscanf` leaves in its array; the ACCEPT branch scans none. -/
def name : CopySite → Text → Text
  | .call, buffer => ((scanWord (buffer.drop 4)).map Prod.fst).getD []
  | .invite, buffer => ((scanWord (buffer.drop 6)).map Prod.fst).getD []
  | .accept, _ => []

def len : CopySite → Text → Nat
  | .call, buffer => 4 + 1 + (name .call buffer).length + 1
  | .invite, buffer => 6 + 1 + (name .invite buffer).length + 1
  | .accept, _ => 6 + 1

/-- `strlen(buffer)-len`, a `size_t` of 64 bits. -/
def copySize (site : CopySite) (buffer : Text) : Nat :=
  (BitVec.ofNat 64 buffer.length - BitVec.ofNat 64 (site.len buffer)).toNat

/-- The size does not wrap around, and the copy stays inside both arrays. -/
structure CopySafe (site : CopySite) (buffer : Text) : Prop where
  offset : site.len buffer ≤ buffer.length
  size : site.copySize buffer = buffer.length - site.len buffer
  source : site.len buffer + site.copySize buffer ≤ socketBufferSize
  target : site.copySize buffer ≤ socketBufferSize

/-- There is as much around the name as the two blanks of the sender: at least two characters before and
after it together. ACCEPT is not alone. -/
def Spaced : CopySite → Text → Prop
  | .accept, buffer => buffer ≠ keyword .accept
  | site, buffer => ∃ blanks name rest, buffer = site.keyword ++ (blanks ++ (name ++ rest)) ∧
      (∀ c ∈ blanks, isSpace c = true) ∧ (∀ c ∈ name, isSpace c = false) ∧
      (∀ c ∈ rest.head?, isSpace c = true) ∧ (name = [] → rest = []) ∧ 2 ≤ blanks.length + rest.length

variable {site : CopySite} {buffer blanks name rest : Text}

theorem length_keyword : (keyword .call).length = 4 ∧ (keyword .invite).length = 6 ∧ (keyword .accept).length = 6 :=
  ⟨rfl, rfl, rfl⟩

theorem starts_of_dispatches (here : site.dispatches buffer = true) : site.keyword <+: buffer := by
  refine List.isPrefixOf_iff_prefix.mp ?_
  cases site with
  | call => exact (Bool.and_eq_true_iff.mp here).2
  | invite =>
    have kind : branch buffer = .invite := of_decide_eq_true here
    rw [branch] at kind
    split_ifs at kind with _ _ keyword
    exact keyword
  | accept =>
    have kind : branch buffer = .accept := of_decide_eq_true here
    rw [branch] at kind
    split_ifs at kind with _ _ _ keyword
    exact keyword

theorem copySafe_iff_le (short : buffer.length < socketBufferSize) :
    site.CopySafe buffer ↔ site.len buffer ≤ buffer.length := by
  refine ⟨fun safe => safe.offset, fun le => ?_⟩
  have size : site.copySize buffer = buffer.length - site.len buffer := by
    simp only [copySize, BitVec.toNat_sub, BitVec.toNat_ofNat, socketBufferSize] at *
    omega
  refine ⟨le, size, ?_, ?_⟩
  · rw [size, Nat.add_sub_cancel' le]
    exact short.le
  · rw [size]
    exact (Nat.sub_le _ _).trans short.le

/-- The word scanned is the name of any such split. -/
theorem scanned_of_split (white : ∀ c ∈ blanks, isSpace c = true) (plain : ∀ c ∈ name, isSpace c = false)
    (ends : ∀ c ∈ rest.head?, isSpace c = true) (alone : name = [] → rest = []) :
    ((scanWord (blanks ++ (name ++ rest))).map Prod.fst).getD [] = name := by
  by_cases empty : name = []
  · have none : scanWord (blanks ++ (name ++ rest)) = none := by
      rw [empty, alone empty]
      exact scanWord_eq_none.mpr (by simpa using white)
    rw [none, empty]
    rfl
  · rw [scanWord_eq_some.mpr ⟨empty, plain, ends, blanks, white, rfl⟩]
    rfl

/-- The offset has room for two blanks besides the keyword and the name. -/
theorem len_le_iff (named : site ≠ .accept) (here : site.dispatches buffer = true) :
    site.len buffer ≤ buffer.length ↔ site.Spaced buffer := by
  obtain ⟨input, rfl⟩ := starts_of_dispatches here
  have scanned : site.name (site.keyword ++ input) = ((scanWord input).map Prod.fst).getD [] := by
    cases site with
    | call | invite => rfl
    | accept => exact absurd rfl named
  have offset : site.len (site.keyword ++ input) =
      site.keyword.length + (((scanWord input).map Prod.fst).getD []).length + 2 := by
    rw [← scanned]
    cases site with
    | call =>
      rw [len, length_keyword.1]
      omega
    | invite =>
      rw [len, length_keyword.2.1]
      omega
    | accept => exact absurd rfl named
  have spaced : site.Spaced (site.keyword ++ input) ↔ ∃ blanks name rest,
      site.keyword ++ input = site.keyword ++ (blanks ++ (name ++ rest)) ∧
        (∀ c ∈ blanks, isSpace c = true) ∧ (∀ c ∈ name, isSpace c = false) ∧
        (∀ c ∈ rest.head?, isSpace c = true) ∧ (name = [] → rest = []) ∧ 2 ≤ blanks.length + rest.length := by
    cases site with
    | call | invite => exact Iff.rfl
    | accept => exact absurd rfl named
  rw [offset, spaced]
  constructor
  · intro le
    obtain ⟨blanks, rest, split, white, plain, ends, alone⟩ := scanned_split input
    refine ⟨blanks, _, rest, congrArg _ split, white, plain, ends, alone, ?_⟩
    have whole := congrArg List.length split
    simp only [List.length_append] at whole le
    omega
  · rintro ⟨blanks, name, rest, split, white, plain, ends, alone, two⟩
    cases List.append_cancel_left split
    rw [scanned_of_split white plain ends alone]
    simp only [List.length_append]
    omega

/-- The decoders of the three branches stop at just those frames whose copy is not safe. -/
theorem decodes_iff (short : buffer.length < socketBufferSize) (fits : (site.name buffer).length < fieldSize) :
    (match site with
      | .call => (decodeCall buffer).isSome
      | .invite => (decodeInvite buffer).isSome
      | .accept => (decodeAccept buffer).isSome) = true ↔ site.CopySafe buffer := by
  rw [copySafe_iff_le short]
  have room := Nat.not_le.mpr fits
  cases site with
  | call =>
    simp only [name] at room
    simp only [decodeCall, if_neg room, len, name]
    split_ifs <;> simp <;> omega
  | invite =>
    simp only [name] at room
    simp only [decodeInvite, if_neg room, len, name]
    split_ifs <;> simp <;> omega
  | accept =>
    simp only [decodeAccept, len]
    split_ifs <;> simp <;> omega

/-- The copy is safe exactly where the frame has the blanks that its senders put into it. -/
theorem copy_safe_iff (short : buffer.length < socketBufferSize) (here : site.dispatches buffer = true) :
    site.CopySafe buffer ↔ site.Spaced buffer := by
  rw [copySafe_iff_le short]
  by_cases named : site = .accept
  · subst named
    obtain ⟨rest, rfl⟩ := starts_of_dispatches here
    rw [len, Spaced, List.length_append, length_keyword.2.2, List.append_right_eq_self.ne,
      ← List.length_pos_iff]
    omega
  · exact len_le_iff named here

/-- What the programs themselves send is copied safely in each of the branches. -/
theorem spaced_frames_safe : CopySite.call.CopySafe "CALL bob sdp".toList ∧
    CopySite.invite.CopySafe "INVITE bob sdp".toList ∧ CopySite.accept.CopySafe "ACCEPT sdp".toList := by
  refine ⟨(copy_safe_iff (by decide) (by decide)).mpr ?_, (copy_safe_iff (by decide) (by decide)).mpr ?_,
    (copy_safe_iff (by decide) (by decide)).mpr (by simp [Spaced, keyword])⟩
  · exact ⟨" ".toList, "bob".toList, " sdp".toList, by decide, by simp [isSpace], by simp [isSpace],
      by simp [isSpace], by simp, by simp⟩
  · exact ⟨" ".toList, "bob".toList, " sdp".toList, by decide, by simp [isSpace], by simp [isSpace],
      by simp [isSpace], by simp, by simp⟩

/-- A CALL and an INVITE without a text, and a reply that the server takes for an ACCEPT. -/
theorem bare_frames_wrap :
    (CopySite.call.dispatches "CALL bob".toList = true ∧ ¬CopySite.call.CopySafe "CALL bob".toList) ∧
    (CopySite.invite.dispatches "INVITE bob".toList = true ∧ ¬CopySite.invite.CopySafe "INVITE bob".toList) ∧
    acceptTest "ACCEPT".toList = some true ∧ CopySite.accept.dispatches "ACCEPT".toList = true ∧
      ¬CopySite.accept.CopySafe "ACCEPT".toList := by
  refine ⟨⟨by decide, fun safe => ?_⟩, ⟨by decide, fun safe => ?_⟩, by decide, by decide, fun safe => ?_⟩
  · exact absurd safe.offset (by decide)
  · exact absurd safe.offset (by decide)
  · exact absurd safe.offset (by decide)

end CopySite

end Signaling
