import BoardSupport.Proofs.Bus.Accesses

/-!
# Waiting on a Register

What a wait comes to on every bus.

A driver that waits for a device reads one register over and over. It stops at
the first word that it accepts, or when it has read as often as it is prepared
to. So a wait is known in full: reads of that register and nothing else, all
refused but perhaps the last, and as many of them as the driver was prepared
for exactly if none was accepted.

## Main definitions

* `Bus.Polls`: The reads of a wait, and the word it ended with, if any.

## Theorems

* `Bus.Polls.offset_eq`: A wait reads one register.
* `Bus.Polls.split`: A wait that ended well has its word read last.
* `Bus.conversation_poll`: What a program goes through that waits on a register.
-/

namespace BoardSupport

namespace Bus

/-- The reads of a wait on one register. Words are refused up to one that is
    accepted, or as often as there are tries. -/
inductive Polls (bits offset : Nat) (accept : BitVec bits → Bool) (tries : Nat) :
    List Access → Option (BitVec bits) → Prop where
  | accepted (refused : List (BitVec bits)) (word : BitVec bits)
      (hrefused : ∀ w ∈ refused, accept w = false) (hlength : refused.length < tries)
      (haccept : accept word = true) :
      Polls bits offset accept tries
        (refused.map (Access.ofRead bits offset) ++ [.ofRead bits offset word]) (some word)
  | exhausted (refused : List (BitVec bits)) (hrefused : ∀ w ∈ refused, accept w = false)
      (hlength : refused.length = tries) :
      Polls bits offset accept tries (refused.map (Access.ofRead bits offset)) none

namespace Polls

variable {bits offset tries : Nat} {accept : BitVec bits → Bool} {xs : List Access}
  {found : Option (BitVec bits)}

/-- A word that was refused goes in front of the rest of a wait. -/
theorem refuse (w : BitVec bits) (hw : accept w = false)
    (h : Polls bits offset accept tries xs found) :
    Polls bits offset accept (tries + 1) (.ofRead bits offset w :: xs) found := by
  cases h with
  | accepted refused word hrefused hlength haccept =>
      exact .accepted (w :: refused) word (List.forall_mem_cons.mpr ⟨hw, hrefused⟩)
        (Nat.succ_lt_succ hlength) haccept
  | exhausted refused hrefused hlength =>
      exact .exhausted (w :: refused) (List.forall_mem_cons.mpr ⟨hw, hrefused⟩)
        (congrArg (· + 1) hlength)

/-- All accesses of a wait are to its register. -/
theorem offset_eq (h : Polls bits offset accept tries xs found) : ∀ a ∈ xs, a.offset = offset := by
  have hreads : ∀ words : List (BitVec bits),
      ∀ a ∈ words.map (Access.ofRead bits offset), a.offset = offset :=
    fun words => List.forall_mem_map.mpr fun _ _ => rfl
  cases h with
  | accepted refused word => exact List.forall_mem_append.mpr ⟨hreads refused, hreads [word]⟩
  | exhausted refused => exact hreads refused

/-- A wait that ended well has read the word it ended with last. -/
theorem split {word : BitVec bits} (h : Polls bits offset accept tries xs (some word)) :
    ∃ before, xs = before ++ [.ofRead bits offset word] ∧ (∀ a ∈ before, a.offset = offset) ∧
      accept word = true := by
  have hoffset := h.offset_eq
  cases h with
  | accepted refused _ _ _ haccept =>
      exact ⟨_, rfl, fun a ha => hoffset a (List.mem_append_left _ ha), haccept⟩

end Polls

/-- What a program goes through that waits on a register, and how it ends. -/
theorem conversation_poll {ε α : Type} (bits offset : Nat) (f : BitVec bits → α)
    (accept : α → Bool) (tries : Nat) (events : List (Event interface))
    (outcome : Outcome ε (Option α))
    (h : (Program.poll tries ((read bits offset).bind fun w => .done (.ok (f w))) accept :
      Driver ε (Option α)).Conversation events outcome) :
    ∃ found, Polls bits offset (fun w => accept (f w)) tries (accesses events) found ∧
      outcome = .ok (found.map f) := by
  -- Induction on the tries: a word that was refused is in front of the rest of
  -- the wait.
  induction tries generalizing events with
  | zero =>
      rcases (Program.conversation_done _ _ _).mp h with ⟨rfl, rfl⟩
      exact ⟨none, .exhausted [] (fun _ hw => absurd hw List.not_mem_nil) rfl, rfl⟩
  | succ tries ih =>
      rcases (Program.conversation_ask _ _ _ _).mp h with ⟨word, rest, rfl, hrest⟩
      change (if accept (f word) = true then Program.done (.ok (some (f word))) else
        Program.poll tries ((read bits offset).bind fun w => .done (.ok (f w))) accept :
          Driver ε (Option α)).Conversation rest outcome at hrest
      by_cases haccept : accept (f word) = true
      · rw [if_pos haccept] at hrest
        rcases (Program.conversation_done _ _ _).mp hrest with ⟨rfl, rfl⟩
        exact ⟨some word, .accepted [] word (fun _ hw => absurd hw List.not_mem_nil)
          (Nat.succ_pos tries) haccept, rfl⟩
      · rw [if_neg haccept] at hrest
        rcases ih rest hrest with ⟨found, hpolls, houtcome⟩
        exact ⟨found, hpolls.refuse word (Bool.eq_false_iff.mpr haccept), houtcome⟩

end Bus

end BoardSupport
