import BoardSupport.Bus.Trace
import BoardSupport.Proofs.Program.Keeps

/-!
# Accesses in a Row

What the accesses among some events are, and which of them follow which.

A fact about a driver on every bus is a fact about the accesses among its
events. The accesses of two lists of events in a row are those of the first
and then those of the second, so such facts are put together like the events.

Two questions come up again and again. What was the access right before a
write? `Bus.Preceded` asks for one of a certain kind, and parts that have it
have it in a row. And what did the first read of some register answer after
each write to another? `Bus.following` gives all these answers in order, one
for each write. A part of a run in which every write has got its answer can be
looked at alone.

## Main definitions

* `Bus.readEvent`, `Bus.writeEvent`: A read that was answered, and a write.
* `Bus.Access.ofRead`, `Bus.Access.ofWrite`: What they are as accesses.
* `Bus.Access.reads`, `Bus.Access.writes`: Accesses to one register.
* `Bus.Preceded`: Accesses that come right after others.
* `Bus.following`: The answers that follow some accesses.

## Theorems

* `Bus.accesses_append`: The accesses of two lists in a row.
* `Bus.forall_read`, `Bus.forall_write`: The access of one event.
* `Bus.composes_accesses`: What holds access by access composes.
* `Bus.preceded_append`: What comes right before is put together.
* `Bus.length_following`: One answer for each access that triggers.
* `Bus.following_append`, `Bus.following_eq_nil`: Putting answers together.
* `Bus.keeps_read`, `Bus.keeps_write`, `Bus.keeps_log`: What the operations of
  the bus keep to.
-/

namespace BoardSupport

namespace Bus

/-- A read that was answered. -/
def readEvent (bits offset : Nat) (answer : BitVec bits) : Event interface :=
  ⟨.read bits offset, answer⟩

/-- A write that was made. -/
def writeEvent (bits offset : Nat) (value : BitVec bits) : Event interface :=
  ⟨.write bits offset value, ()⟩

/-- A message that was logged. -/
def logEvent (level : Log.Level) (message : String) : Event interface :=
  ⟨.log level message, ()⟩

namespace Access

/-- A read of a register and its answer. -/
def ofRead (bits offset : Nat) (answer : BitVec bits) : Access :=
  ⟨false, bits, offset, answer.toNat⟩

/-- A write to a register. -/
def ofWrite (bits offset : Nat) (value : BitVec bits) : Access :=
  ⟨true, bits, offset, value.toNat⟩

/-- Whether an access is a read of the register at an offset. -/
def reads (offset : Nat) (a : Access) : Bool :=
  !a.isWrite && a.offset == offset

/-- Whether an access is a write to the register at an offset. -/
def writes (offset : Nat) (a : Access) : Bool :=
  a.isWrite && a.offset == offset

end Access

@[simp] theorem accesses_nil : accesses [] = [] := rfl

@[simp] theorem accesses_append (first rest : List (Event interface)) :
    accesses (first ++ rest) = accesses first ++ accesses rest :=
  List.filterMap_append

@[simp] theorem accesses_write (bits offset : Nat) (value : BitVec bits)
    (rest : List (Event interface)) :
    accesses (writeEvent bits offset value :: rest) =
      .ofWrite bits offset value :: accesses rest := rfl

-- What is to hold of all accesses of one event is to hold of the one it is.
theorem forall_read {p : Access → Prop} {bits offset : Nat} {answer : BitVec bits}
    (h : p (.ofRead bits offset answer)) : ∀ a ∈ accesses [readEvent bits offset answer], p a := by
  intro a ha
  cases List.mem_singleton.mp ha
  exact h

theorem forall_write {p : Access → Prop} {bits offset : Nat} {value : BitVec bits}
    (h : p (.ofWrite bits offset value)) : ∀ a ∈ accesses [writeEvent bits offset value], p a := by
  intro a ha
  cases List.mem_singleton.mp ha
  exact h

-- What holds access by access composes.
theorem composes_accesses (p : Access → Prop) :
    Composes fun events => ∀ a ∈ accesses events, p a := by
  refine ⟨fun _ ha => absurd ha List.not_mem_nil, fun first rest hf hr a ha => ?_⟩
  rw [accesses_append] at ha
  rcases List.mem_append.mp ha with ha | ha
  · exact hf a ha
  · exact hr a ha

-- Accesses of which none is looked for.
theorem filter_eq_nil {p : Access → Bool} {xs : List Access} (h : ∀ a ∈ xs, p a = false) :
    xs.filter p = [] :=
  List.filter_eq_nil_iff.mpr fun a ha => Bool.eq_false_iff.mp (h a ha)

/-- Every access that satisfies `trigger` comes right after one of a certain
    kind, which may depend on it. -/
def Preceded (trigger : Access → Bool) (kind : Access → Access → Prop) (xs : List Access) : Prop :=
  ∀ before w after, xs = before ++ w :: after → trigger w = true →
    ∃ r, before.getLast? = some r ∧ kind r w

section Preceded

variable {trigger : Access → Bool} {kind : Access → Access → Prop}

theorem preceded_append (xs ys : List Access) (hx : Preceded trigger kind xs)
    (hy : Preceded trigger kind ys) : Preceded trigger kind (xs ++ ys) := by
  intro before w after heq hw
  rcases List.append_eq_append_iff.mp heq with ⟨more, rfl, hys⟩ | ⟨more, rfl, hmore⟩
  · -- The access is in the second part, and so is the one before it.
    rcases hy more w after hys hw with ⟨r, hlast, hr⟩
    refine ⟨r, ?_, hr⟩
    rw [List.getLast?_append, hlast]
    rfl
  · cases more with
    | nil =>
        -- It would be the first access of the second part, before which there is
        -- none.
        rcases hy [] w after hmore.symm hw with ⟨r, hlast, -⟩
        cases hlast
    | cons v more =>
        cases hmore
        exact hx before w more rfl hw

theorem preceded_left (xs ys : List Access) (h : Preceded trigger kind (xs ++ ys)) :
    Preceded trigger kind xs := by
  rintro before w after rfl hw
  exact h before w (after ++ ys) (List.append_assoc before (w :: after) ys) hw

-- Accesses none of which triggers.
theorem preceded_of_forall (xs : List Access) (h : ∀ a ∈ xs, trigger a = false) :
    Preceded trigger kind xs := by
  rintro before w after rfl hw
  rw [h w (by simp)] at hw
  cases hw

-- An access that triggers, right after one that does not and is of the kind.
theorem preceded_pair (r w : Access) (hr : trigger r = false) (hkind : kind r w) :
    Preceded trigger kind [r, w] := by
  intro before a after heq ha
  match before, heq with
  | [], heq =>
      cases heq
      rw [hr] at ha
      cases ha
  | [_], heq =>
      cases heq
      exact ⟨r, rfl, hkind⟩
  | _ :: _ :: _, heq => simp at heq

end Preceded

/-- What the first access to satisfy `question` moved after each that satisfies
    `trigger`, in the order of the latter. -/
def following (trigger question : Access → Bool) : List Access → List (Option Nat)
  | [] => []
  | a :: rest =>
    if trigger a then
      (rest.find? question).map Access.value :: following trigger question rest
    else
      following trigger question rest

section Following

variable (trigger question : Access → Bool)

/-- There is one answer for each access that triggers. -/
theorem length_following (xs : List Access) :
    (following trigger question xs).length = xs.countP trigger := by
  induction xs with
  | nil => rfl
  | cons a rest ih =>
      rw [following]
      by_cases ha : trigger a = true
      · rw [if_pos ha, List.length_cons, ih, List.countP_cons_of_pos ha]
      · rw [if_neg ha, ih, List.countP_cons_of_neg ha]

theorem following_eq_nil (xs : List Access) (h : ∀ a ∈ xs, trigger a = false) :
    following trigger question xs = [] := by
  induction xs with
  | nil => rfl
  | cons a rest ih =>
      rw [following, h a List.mem_cons_self, if_neg Bool.false_ne_true]
      exact ih fun b hb => h b (List.mem_cons_of_mem a hb)

/-- If every question of the first part has been answered in it, the rest
    changes none of the answers. -/
theorem following_append (xs ys : List Access) (h : none ∉ following trigger question xs) :
    following trigger question (xs ++ ys) =
      following trigger question xs ++ following trigger question ys := by
  induction xs with
  | nil => rfl
  | cons a rest ih =>
      rw [List.cons_append, following, following]
      rw [following] at h
      by_cases ha : trigger a = true
      · rw [if_pos ha] at h
        rw [if_pos ha, if_pos ha, List.cons_append, ih fun hn => h (List.mem_cons_of_mem _ hn)]
        -- The answer to this question is in the first part.
        have hfound : rest.find? question ≠ none := by
          intro hnone
          rw [hnone] at h
          exact h List.mem_cons_self
        rcases Option.ne_none_iff_exists'.mp hfound with ⟨b, hb⟩
        rw [List.find?_append, hb]
        rfl
      · rw [if_neg ha] at h
        rw [if_neg ha, if_neg ha, ih h]

end Following

section Operations

variable {ε : Type} {P : List (Event interface) → Prop} {E : ε → Prop}

theorem keeps_read (bits offset : Nat) (h : ∀ answer, P [readEvent bits offset answer]) :
    (read bits offset : Driver ε (BitVec bits)).Keeps P (fun _ => True) E :=
  Program.keeps_ask (I := interface) (.read bits offset) (fun _ => True)
    fun answer => ⟨h answer, trivial⟩

theorem keeps_write (bits offset : Nat) (value : BitVec bits)
    (h : P [writeEvent bits offset value]) :
    (write bits offset value : Driver ε Unit).Keeps P (fun _ => True) E :=
  Program.keeps_ask (I := interface) (.write bits offset value) (fun _ => True)
    fun _ => ⟨h, trivial⟩

theorem keeps_log (level : Log.Level) (message : String) (h : P [logEvent level message]) :
    (log level message : Driver ε Unit).Keeps P (fun _ => True) E :=
  Program.keeps_ask (I := interface) (.log level message) (fun _ => True)
    fun _ => ⟨h, trivial⟩

end Operations

end Bus

end BoardSupport
