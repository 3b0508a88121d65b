import Signaling.Client
import Signaling.ServerSteps

namespace Signaling
open Machine CText

/-- One of the four numbers of an IPv4 address: up to three digits, at most 255. -/
def octet (part : Text) : Option Nat :=
  if part.all Char.isDigit ∧ part.length ≤ 3 then (scanDigits part).filter (· ≤ 255) else none

/-- `inet_pton(AF_INET, ..)` on "ddd.ddd.ddd.ddd"; `none` where it does not return 1. -/
def inetPton (address : Text) : Option (List Nat) :=
  let parts := address.splitOn '.'
  if parts.length = 4 then parts.mapM octet else none

/-- `htons(port)` of `server_handler`: what the listener of the client binds. -/
def boundPort (port : Int) : BitVec 16 := BitVec.ofInt 16 port

/-- `htons(*client_port_int)` of `connect_to_client`. -/
def Handler.connectPort (h : Handler) : BitVec 16 := BitVec.ofInt 16 h.clientPortInt

/-- The CLIENT branch takes the frame as it was written, within `client_ip_address`, and goes on to
connect to the port that is bound. -/
structure Announced (message address : Text) (port : Int) : Prop where
  decoded : commandOf message = some (.client (some address) (some port))
  inside : address.length + 1 ≤ addressSize
  connects : ∀ i h w h' w', Handler.step i h w (.recv message) = some (h', w') → h'.phase = .opening →
    h'.clientIpAddress = address ∧ h'.connectPort = boundPort port

section Address
variable {address part : Text} {c : Char}

theorem octet_spec (accepted : (octet part).isSome = true) :
    part ≠ [] ∧ part.length ≤ 3 ∧ ∀ c ∈ part, c.isDigit = true := by
  rw [octet] at accepted
  split_ifs at accepted with shape
  · refine ⟨?_, shape.2, List.all_eq_true.mp shape.1⟩
    rintro rfl
    exact absurd accepted (by decide)
  · simp at accepted

theorem octet_of_mapM {parts : List Text} {octets : List Nat} (read : parts.mapM octet = some octets) :
    ∀ part ∈ parts, (octet part).isSome = true := by
  induction parts generalizing octets with
  | nil => simp
  | cons part parts ih =>
    rw [List.mapM_cons] at read
    obtain ⟨first, one, others⟩ := Option.bind_eq_some_iff.mp read
    obtain ⟨rest, all, _⟩ := Option.bind_eq_some_iff.mp others
    exact List.forall_mem_cons.mpr ⟨by simp [one], ih all⟩

/-- The four numbers of an address that `inet_pton` accepts. -/
theorem inetPton_parts (accepted : (inetPton address).isSome = true) : ∃ one two three four : Text,
    address.splitOn '.' = [one, two, three, four] ∧ address = one ++ '.' :: (two ++ '.' :: (three ++ '.' :: four)) ∧
      ∀ part ∈ [one, two, three, four], part ≠ [] ∧ part.length ≤ 3 ∧ ∀ c ∈ part, c.isDigit = true := by
  have whole : ['.'].intercalate (address.splitOn '.') = address := List.intercalate_splitOn '.'
  obtain ⟨octets, read⟩ := Option.isSome_iff_exists.mp accepted
  rw [inetPton] at read
  split_ifs at read with four
  match parts : address.splitOn '.', four with
  | [one, two, three, four], _ =>
    rw [parts] at whole read
    exact ⟨one, two, three, four, rfl, by simpa [List.intercalate] using whole.symm,
      fun part member => octet_spec (octet_of_mapM read part member)⟩

theorem mem_address (accepted : (inetPton address).isSome = true) (member : c ∈ address) :
    c = '.' ∨ c.isDigit = true := by
  obtain ⟨one, two, three, four, _, rfl, parts⟩ := inetPton_parts accepted
  simp only [List.mem_append, List.mem_cons] at member
  simp only [List.forall_mem_cons] at parts
  obtain ⟨⟨_, _, first⟩, ⟨_, _, second⟩, ⟨_, _, third⟩, ⟨_, _, fourth⟩, _⟩ := parts
  rcases member with member | rfl | member | rfl | member | rfl | member
  · exact Or.inr (first c member)
  · exact Or.inl rfl
  · exact Or.inr (second c member)
  · exact Or.inl rfl
  · exact Or.inr (third c member)
  · exact Or.inl rfl
  · exact Or.inr (fourth c member)

/-- The longest addresses are those of four numbers with three digits each. -/
theorem length_address (accepted : (inetPton address).isSome = true) :
    7 ≤ address.length ∧ address.length ≤ 15 ∧
      (address.length + 1 ≤ addressSize ↔ ∃ part ∈ address.splitOn '.', part.length < 3) := by
  obtain ⟨one, two, three, four, split, whole, parts⟩ := inetPton_parts accepted
  have length : address.length = one.length + two.length + three.length + four.length + 3 := by
    rw [whole]
    simp only [List.length_append, List.length_cons]
    omega
  have digits : ∀ part ∈ [one, two, three, four], 0 < part.length ∧ part.length ≤ 3 :=
    fun part member => ⟨List.length_pos_iff.mpr (parts part member).1, (parts part member).2.1⟩
  simp only [List.forall_mem_cons] at digits
  rw [split, length, addressSize]
  simp only [List.exists_mem_cons_iff, List.not_mem_nil, false_and, exists_false, or_false]
  omega

end Address

section Frame
variable {c : Client} {address message : Text} {port : Int}

theorem free_address (accepted : (inetPton address).isSome = true) : nul ∉ address := by
  intro inside
  rcases mem_address accepted inside with dot | digit
  · exact absurd dot (by decide)
  · exact absurd digit (by decide)

theorem plain_address (accepted : (inetPton address).isSome = true) : ∀ c ∈ address, isSpace c = false := by
  intro c member
  rcases mem_address accepted member with rfl | digit
  · decide
  · exact isSpace_of_isDigit digit

/-- The CLIENT branch reads the port as it was printed; the address stops it where it is too long. -/
theorem decodeClient_printed (accepted : (inetPton address).isSome = true)
    (int : -0x80000000 ≤ port ∧ port < 0x80000000) :
    decodeClient (' ' :: (address ++ ' ' :: (toString port).toList)) =
      if address.length + 1 ≤ addressSize then some (.client (some address) (some port)) else none := by
  have filled : address ≠ [] := by
    rintro rfl
    exact absurd accepted (by decide)
  have word := scanWord_word filled (plain_address accepted) (Or.inr ⟨(toString port).toList, rfl⟩)
  simp only [decodeClient, word, scanInt_blank, scanInt_toString, if_pos int]
  split_ifs <;> first | rfl | omega

theorem free_clientText (accepted : (inetPton address).isSome = true) :
    nul ∉ "CLIENT ".toList ++ address ++ ' ' :: (toString port).toList := by
  have free : nul ∉ (toString port).toList := by
    intro inside
    rcases mem_toString inside with minus | digit
    · exact absurd minus (by decide)
    · exact absurd digit (by decide)
  exact nul_notMem_fields (by decide) (free_address accepted) free

theorem sendIpAndPort_sends (accepted : (inetPton address).isSome = true)
    (int : -0x80000000 ≤ port ∧ port < 0x80000000) :
    ∃ message, c.sendIpAndPort address port = some (c.goto .menu, message) ∧
      commandOf message =
        if address.length + 1 ≤ addressSize then some (.client (some address) (some port)) else none := by
  have digits : (Nat.toDigits 10 port.natAbs).length ≤ 10 :=
    (Nat.length_toDigits_le_iff (by decide) (by decide)).mpr (by omega)
  have printedPort : (toString port).toList.length ≤ (Nat.toDigits 10 port.natAbs).length + 1 := length_toString_le
  have keyword : "CLIENT ".toList.length = 7 := rfl
  have short : ("CLIENT ".toList ++ address ++ ' ' :: (toString port).toList).length < socketBufferSize := by
    have most := (length_address accepted).2.1
    simp only [List.length_append, List.length_cons, keyword, socketBufferSize]
    omega
  have sent : printed ("CLIENT ".toList ++ address ++ ' ' :: (toString port).toList) = some _ := if_pos short
  have branch : decode ("CLIENT ".toList ++ address ++ ' ' :: (toString port).toList) =
      decodeClient (' ' :: (address ++ ' ' :: (toString port).toList)) := by
    simp [decode, hasKeyword]
  refine ⟨_, by rw [Client.sendIpAndPort, sent, Option.map_some], ?_⟩
  rw [commandOf_printed sent, ofBuffer_of_free (free_clientText accepted), branch,
    decodeClient_printed accepted int]

/-- The CLIENT branch goes on with the address and the port of the frame. -/
theorem Handler.connectPort_client {i : Nat} {h h' : Handler} {w w' : Shared}
    (decoded : commandOf message = some (.client (some address) (some port)))
    (stepped : h.step i w (.recv message) = some (h', w')) (opening : h'.phase = .opening) :
    h'.clientIpAddress = address ∧ h'.connectPort = boundPort port := by
  have fields {command : Command} (heard : h.hears w (.recv message) = some command) :
      command = .client (some address) (some port) := by
    rw [hears] at heard
    split_ifs at heard
    exact Option.some.inj (heard.symm.trans decoded)
  cases step_moved stepped with
  | client _ heard =>
    cases fields heard
    exact ⟨rfl, rfl⟩
  | hangup => simp [goto] at opening
  | signup _ heard | login _ heard | call _ heard | refuse _ heard | logout _ heard | exit _ heard
  | ignored _ heard => exact absurd (fields heard) (by simp)

/-- The server learns where the client listens unless each number of the address has three digits: then
the terminating NUL is written past the end of `client_ip_address`. -/
theorem client_announced_iff (accepted : (inetPton address).isSome = true)
    (int : -0x80000000 ≤ port ∧ port < 0x80000000) :
    ∃ message, c.sendIpAndPort address port = some (c.goto .menu, message) ∧
      (Announced message address port ↔ ∃ part ∈ address.splitOn '.', part.length < 3) := by
  obtain ⟨message, sent, decoded⟩ := sendIpAndPort_sends (c := c) accepted int
  refine ⟨message, sent, ?_⟩
  rw [← (length_address accepted).2.2]
  constructor
  · intro announced
    exact announced.inside
  · intro fits
    rw [if_pos fits] at decoded
    exact ⟨decoded, fits, fun i h w h' w' => Handler.connectPort_client decoded⟩

end Frame

theorem local_address_announced : ∃ message,
    Client.sendIpAndPort {} "127.0.0.1".toList 70000 = some (Client.goto {} .menu, message) ∧
      Announced message "127.0.0.1".toList 70000 := by
  have accepted : (inetPton "127.0.0.1".toList).isSome = true := by decide
  have int : -0x80000000 ≤ (70000 : Int) ∧ (70000 : Int) < 0x80000000 := by decide
  obtain ⟨message, sent, announced⟩ := client_announced_iff (c := {}) accepted int
  exact ⟨message, sent, announced.mpr (by decide)⟩

/-- An address that fills the array. -/
theorem longest_address_lost : ∃ message, (inetPton "255.255.255.255".toList).isSome = true ∧
    Client.sendIpAndPort {} "255.255.255.255".toList 9000 = some (Client.goto {} .menu, message) ∧
      commandOf message = none ∧ ¬Announced message "255.255.255.255".toList 9000 := by
  refine ⟨_, by decide, rfl, by decide +kernel, fun announced => ?_⟩
  exact absurd announced.inside (by decide)

end Signaling
