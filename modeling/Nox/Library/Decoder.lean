import Mathlib.Data.List.Basic
import Nox.Library.BoundedQuantifiers

/-! # Prefix decoders over item strings and their round-trip rules

A decoder reads a prefix of its input and returns the value it read together with the unread
rest, or fails with a message. Binary formats are built by sequencing decoders. Two properties
of a format matter: a decoder *reads back* an encoder when it recovers every valid encoded value
and leaves whatever follows untouched, and it is *canonical* for the encoder when every input it
accepts is exactly an encoding followed by the rest. Both are stated here once, for any item
type, and transported along sequencing and fixed-count repetition.
-/

/-- A prefix decoder: the value read and the unread rest, or the failure message. -/
def Decoder (β α : Type) : Type := List β → Except String (α × List β)

namespace Decoder

variable {β α γ : Type}

/-- Succeed without reading. -/
protected def pure (a : α) : Decoder β α := fun rest => .ok (a, rest)

/-- Read with `d`, then continue with `f` on what it read; a failure stops the decoder. -/
protected def bind (d : Decoder β α) (f : α → Decoder β γ) : Decoder β γ := fun input =>
  match d input with
  | .ok (a, rest) => f a rest
  | .error message => .error message

instance : Monad (Decoder β) where
  pure := Decoder.pure
  bind := Decoder.bind

/-- Fail with a message, reading nothing. -/
def fail (message : String) : Decoder β α := fun _ => .error message

/-- Read one item; an exhausted input fails with `message`. -/
def item (message : String) : Decoder β β
  | [] => .error message
  | b :: rest => .ok (b, rest)

/-- Read `count` values with `d`, in order. -/
def replicate (d : Decoder β α) : ℕ → Decoder β (List α)
  | 0 => pure []
  | count + 1 => do
    let head ← d
    let tail ← replicate d count
    pure (head :: tail)

@[simp] theorem pure_apply (a : α) (input : List β) :
    (pure a : Decoder β α) input = .ok (a, input) := rfl

@[simp] theorem fail_apply (message : String) (input : List β) :
    (fail message : Decoder β α) input = .error message := rfl

theorem bind_apply (d : Decoder β α) (f : α → Decoder β γ) (input : List β) :
    (d >>= f) input = match d input with
      | .ok (a, rest) => f a rest
      | .error message => .error message := rfl

/-- Sequencing after a successful read continues on the unread rest. -/
theorem bind_ok {d : Decoder β α} {input rest : List β} {a : α} (read : d input = .ok (a, rest))
    (f : α → Decoder β γ) : (d >>= f) input = f a rest := by
  rw [bind_apply, read]

/-- A failed read fails the whole sequence with its message. -/
theorem bind_error {d : Decoder β α} {input : List β} {message : String}
    (read : d input = .error message) (f : α → Decoder β γ) : (d >>= f) input = .error message := by
  rw [bind_apply, read]

/-- A successful sequence splits into a successful first read and a successful continuation. -/
theorem bind_eq_ok {d : Decoder β α} {f : α → Decoder β γ} {input rest : List β} {c : γ}
    (success : (d >>= f) input = .ok (c, rest)) :
    ∃ a middle, d input = .ok (a, middle) ∧ f a middle = .ok (c, rest) := by
  rw [bind_apply] at success
  split at success
  · exact ⟨_, _, ‹_›, success⟩
  · cases success

@[simp] theorem item_cons (message : String) (b : β) (rest : List β) :
    item message (b :: rest) = .ok (b, rest) := rfl

@[simp] theorem replicate_zero (d : Decoder β α) : replicate d 0 = pure [] := rfl

theorem replicate_succ (d : Decoder β α) (count : ℕ) :
    replicate d (count + 1) = (do
      let head ← d
      let tail ← replicate d count
      pure (head :: tail)) := rfl

/-! ## Reading back and canonicity -/

/-- `decode` reads back every value `encode` writes that satisfies `valid`, leaving the rest. -/
def ReadsBack (encode : α → List β) (decode : Decoder β α) (valid : α → Prop) : Prop :=
  ∀ value, valid value → ∀ rest, decode (encode value ++ rest) = .ok (value, rest)

/-- Every input `decode` accepts is the encoding of what it returns, followed by the rest, and
what it returns satisfies `valid`. -/
def Canonical (encode : α → List β) (decode : Decoder β α) (valid : α → Prop) : Prop :=
  ∀ input value rest, decode input = .ok (value, rest) → input = encode value ++ rest ∧ valid value

/-- Repetition reads back the concatenated encodings of a list of the requested length. -/
theorem ReadsBack.replicate {encode : α → List β} {decode : Decoder β α} {valid : α → Prop}
    (single : ReadsBack encode decode valid) (values : List α) (allValid : ∀ v ∈ values, valid v)
    (rest : List β) :
    Decoder.replicate decode values.length (values.flatMap encode ++ rest) = .ok (values, rest) := by
  induction values with
  | nil => rfl
  | cons value tail ih =>
    have headValid : valid value := allValid value List.mem_cons_self
    have tailRead := ih (fun v member => allValid v (List.mem_cons_of_mem _ member))
    simp only [List.length_cons, replicate_succ, List.flatMap_cons, List.append_assoc]
    rw [bind_ok (single value headValid _), bind_ok tailRead]
    rfl

/-- Repetition of a canonical decoder is canonical for the concatenated encodings. -/
theorem Canonical.replicate {encode : α → List β} {decode : Decoder β α} {valid : α → Prop}
    (single : Canonical encode decode valid) (count : ℕ) (input rest : List β) (values : List α)
    (success : Decoder.replicate decode count input = .ok (values, rest)) :
    input = values.flatMap encode ++ rest ∧ values.length = count ∧ ∀ v ∈ values, valid v := by
  induction count generalizing input values with
  | zero =>
    cases success
    exact ⟨rfl, rfl, fun _ member => by cases member⟩
  | succ count ih =>
    rw [replicate_succ] at success
    obtain ⟨head, middle, headRead, tailRead⟩ := bind_eq_ok success
    obtain ⟨tail, after, tailSuccess, done⟩ := bind_eq_ok tailRead
    cases done
    obtain ⟨headInput, headValid⟩ := single input head middle headRead
    obtain ⟨tailInput, tailLength, tailValid⟩ := ih middle tail tailSuccess
    refine ⟨?_, by simp [tailLength], ?_⟩
    · rw [headInput, tailInput]
      simp
    · intro v member
      rcases List.mem_cons.mp member with rfl | later
      · exact headValid
      · exact tailValid v later

/-- Reading `l.length` single items returns `l` itself. -/
theorem replicate_item (message : String) (l rest : List β) :
    Decoder.replicate (item message) l.length (l ++ rest) = .ok (l, rest) := by
  have single : ReadsBack (fun b : β => [b]) (item message) (fun _ => True) := by
    intro b _ rest
    rfl
  simpa using single.replicate l (fun _ _ => trivial) rest

/-- Single items are canonical: what is read is exactly the consumed prefix. -/
theorem item_canonical (message : String) :
    Canonical (fun b => [b]) (item message : Decoder β β) (fun _ => True) := by
  intro input value rest success
  cases input with
  | nil => cases success
  | cons b tail =>
    cases success
    exact ⟨rfl, trivial⟩

end Decoder
