import Mathlib.Data.List.Basic

/-! Two queues between a sender and a server that serves one request after the other. Requests are
numbered in the order in which they are sent. -/
namespace Machine.RequestReply

variable {Request Reply : Type*}

/-- `writing` is what the server has still to write for the request it took last. Each reply under
way comes with the number of the request it was written for. -/
structure Line (Request Reply : Type*) where
  sent : List Request := []
  taken : Nat := 0
  writing : Option Reply := none
  replies : List (Nat × Reply) := []

namespace Line
variable (replyTo : Request → Option Reply)

/-- The replies to the requests that the server has not taken. -/
def waiting (line : Line Request Reply) : List (Nat × Reply) :=
  (line.sent.zipIdx.drop line.taken).filterMap fun (request, n) => (replyTo request).map (n, ·)

/-- All that the sender can still get for what it has sent. -/
def owed (line : Line Request Reply) : List (Nat × Reply) :=
  line.replies ++ (line.writing.map (line.taken - 1, ·)).toList ++ line.waiting replyTo

variable (line : Line Request Reply) {request : Request} {reply : Reply} {n : Nat}

theorem waiting_send (request : Request) (within : line.taken ≤ line.sent.length) :
    ({ line with sent := line.sent ++ [request] } : Line Request Reply).waiting replyTo =
      line.waiting replyTo ++ ((replyTo request).map (line.sent.length, ·)).toList := by
  have numbered : (line.sent ++ [request]).zipIdx = line.sent.zipIdx ++ [(request, line.sent.length)] := by
    simp [List.zipIdx_append]
  rw [waiting, numbered, List.drop_append_of_le_length (by simpa using within), List.filterMap_append]
  congr 1

/-- What is sent is owed last. -/
theorem owed_send (request : Request) (within : line.taken ≤ line.sent.length) :
    ({ line with sent := line.sent ++ [request] } : Line Request Reply).owed replyTo =
      line.owed replyTo ++ ((replyTo request).map (line.sent.length, ·)).toList := by
  simp only [owed, waiting_send replyTo line request within, List.append_assoc]

theorem waiting_take (next : line.sent[line.taken]? = some request) : line.waiting replyTo =
    ((replyTo request).map (line.taken, ·)).toList ++
      ({ line with taken := line.taken + 1 } : Line Request Reply).waiting replyTo := by
  obtain ⟨inside, same⟩ := List.getElem?_eq_some_iff.mp next
  have split : line.sent.zipIdx.drop line.taken =
      (request, line.taken) :: line.sent.zipIdx.drop (line.taken + 1) := by
    rw [List.drop_eq_getElem_cons (by simpa using inside)]
    simp [same]
  rw [waiting, split, List.filterMap_cons, waiting]
  cases answer : replyTo request <;> simp [answer]

/-- A request that the server takes up is owed as before. -/
theorem owed_take (next : line.sent[line.taken]? = some request) (idle : line.writing = none) :
    ({ line with taken := line.taken + 1, writing := replyTo request } : Line Request Reply).owed replyTo =
      line.owed replyTo := by
  rw [owed, owed, waiting_take replyTo line next, idle, Nat.add_sub_cancel, Option.map_none, Option.toList_none,
    List.append_nil, ← List.append_assoc]
  rfl

theorem owed_write (busy : line.writing = some reply) :
    ({ line with writing := none, replies := line.replies ++ [(line.taken - 1, reply)] } :
      Line Request Reply).owed replyTo = line.owed replyTo := by
  rw [owed, owed, busy]
  simp [waiting]

theorem owed_read {rest : List (Nat × Reply)} (first : line.replies = (n, reply) :: rest) :
    line.owed replyTo = (n, reply) :: ({ line with replies := rest } : Line Request Reply).owed replyTo := by
  rw [owed, owed, first]
  rfl

theorem waiting_sublist {taken : Nat} (le : line.taken ≤ taken) :
    (({ line with taken := taken } : Line Request Reply).waiting replyTo).Sublist (line.waiting replyTo) :=
  (List.drop_sublist_drop_left _ le).filterMap _

/-- What the server gives up is no longer owed. -/
theorem owed_dismiss {taken : Nat} (le : line.taken ≤ taken) :
    (({ line with taken := taken, writing := none } : Line Request Reply).owed replyTo).Sublist
      (line.owed replyTo) :=
  ((List.nil_sublist _).append_left line.replies).append (waiting_sublist replyTo line le)

theorem owed_settled (idle : line.writing = none) (nothing : line.waiting replyTo = []) :
    line.owed replyTo = line.replies := by
  rw [owed, idle, nothing]
  simp

theorem replies_sublist_owed : line.replies.Sublist (line.owed replyTo) := by
  rw [owed, List.append_assoc]
  exact List.sublist_append_left _ _

end Line

end Machine.RequestReply
