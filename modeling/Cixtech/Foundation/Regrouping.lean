import Mathlib.Data.Nat.Digits.Lemmas

/-! Digits of one width regrouped into digits of another through a word of a fixed size. Digits
are shifted in at its low end and others are taken out of it while it has bits enough. Nothing
masks the bits above the pending ones, so that only the pending ones mean anything.
-/

namespace Cixtech.Foundation.Regrouping

/-- The number that digits of a width spell, the highest one first. -/
def number (width : Nat) (digits : List Nat) : Nat := Nat.ofDigits (2 ^ width) digits.reverse

@[simp]
theorem number_nil (width : Nat) : number width [] = 0 := rfl

theorem number_append (width : Nat) (digits : List Nat) (digit : Nat)
    : number width (digits ++ [digit]) = number width digits * 2 ^ width + digit := by
  rw [number, List.reverse_append, List.reverse_singleton, List.singleton_append,
    Nat.ofDigits_cons, Nat.mul_comm, Nat.add_comm]
  rfl

/-- Digits in front count by the power of those behind them. -/
theorem number_append_digits (width : Nat) (front back : List Nat)
    : number width (front ++ back)
      = number width front * 2 ^ (width * back.length) + number width back := by
  rw [number, List.reverse_append, Nat.ofDigits_append, List.length_reverse, ← Nat.pow_mul,
    Nat.mul_comm, Nat.add_comm]
  rfl

/-- Digits of a width spell a number below the power of their count. -/
theorem number_lt {width : Nat} {digits : List Nat} (small : ∀ digit ∈ digits, digit < 2 ^ width)
    : number width digits < 2 ^ (width * digits.length) := by
  induction digits using List.reverseRecOn with
  | nil => simp
  | append_singleton front digit ih =>
      have bound := ih fun other member => small other (List.mem_append_left _ member)
      have last := small digit (by simp)
      rw [number_append, List.length_append, List.length_singleton, Nat.mul_add, Nat.mul_one,
        Nat.pow_add]
      calc number width front * 2 ^ width + digit
          < number width front * 2 ^ width + 2 ^ width := by omega
        _ = (number width front + 1) * 2 ^ width := by rw [Nat.add_mul, Nat.one_mul]
        _ ≤ 2 ^ (width * front.length) * 2 ^ width := Nat.mul_le_mul_right _ bound

/-- Zeros in front count for nothing. -/
theorem number_replicate_append (width zeros : Nat) (digits : List Nat)
    : number width (List.replicate zeros 0 ++ digits) = number width digits := by
  have nothing : number width (List.replicate zeros 0) = 0 := by
    rw [number, List.reverse_replicate, Nat.ofDigits_replicate_zero]
  rw [number_append_digits, nothing, Nat.zero_mul, Nat.zero_add]

/-- The digits in front are what is left over a division. -/
theorem number_div {width : Nat} {front back : List Nat}
    (small : ∀ digit ∈ back, digit < 2 ^ width)
    : number width (front ++ back) / 2 ^ (width * back.length) = number width front := by
  rw [number_append_digits, Nat.mul_comm, Nat.mul_add_div (Nat.two_pow_pos _),
    Nat.div_eq_of_lt (number_lt small), Nat.add_zero]

/-- As many digits that spell the same number are the same digits. -/
theorem number_inj {width : Nat} {first second : List Nat} (positive : 0 < width)
    (count : first.length = second.length) (small : ∀ digit ∈ first, digit < 2 ^ width)
    (smallSecond : ∀ digit ∈ second, digit < 2 ^ width)
    (same : number width first = number width second)
    : first = second := by
  have radix : 1 < 2 ^ width := Nat.one_lt_two_pow positive.ne'
  have reversed : first.reverse = second.reverse :=
    Nat.ofDigits_inj_of_len_eq radix (by simpa using count) (by simpa using small)
      (by simpa using smallSecond) same
  exact List.reverse_injective reversed

/-- A digit shifted into a word, whose highest bits fall out. -/
def shiftIn (size width word digit : Nat) : Nat := word <<< width % 2 ^ size ||| digit

/-- The highest of the pending bits of a word, as a digit of a width. -/
def takeOut (width pending word : Nat) : Nat := word >>> (pending - width) % 2 ^ width

/-- The pending bits of a word, filled up with zeros to a digit of a width. -/
def fillUp (size width pending word : Nat) : Nat :=
  word <<< (width - pending) % 2 ^ size % 2 ^ width

theorem takeOut_lt (width pending word : Nat) : takeOut width pending word < 2 ^ width :=
  Nat.mod_lt _ (Nat.two_pow_pos width)

theorem fillUp_lt (size width pending word : Nat) : fillUp size width pending word < 2 ^ width :=
  Nat.mod_lt _ (Nat.two_pow_pos width)

/-- What was read is what was written with the pending bits of the word behind it. -/
structure Holds (inWidth outWidth : Nat) (read written : List Nat) (pending word : Nat) : Prop where
  count : inWidth * read.length = outWidth * written.length + pending
  value
    : number inWidth read = number outWidth written * 2 ^ pending + word % 2 ^ pending

/-- What was written is what was read with some zero bits behind it. -/
structure Padded (inWidth outWidth : Nat) (read written : List Nat) (padding : Nat) : Prop where
  count : inWidth * read.length + padding = outWidth * written.length
  value : number outWidth written = number inWidth read * 2 ^ padding

variable {size inWidth outWidth pending word : Nat} {read written : List Nat}

theorem holds_start (inWidth outWidth word : Nat) : Holds inWidth outWidth [] [] 0 word where
  count := rfl
  value := by simp [Nat.mod_one]

/-- Where the word has room, a digit that is shifted in lies behind the pending bits. -/
theorem shiftIn_pending {digit : Nat} (fits : pending + inWidth ≤ size)
    (small : digit < 2 ^ inWidth)
    : shiftIn size inWidth word digit % 2 ^ (pending + inWidth)
      = word % 2 ^ pending * 2 ^ inWidth + digit := by
  have room : 2 ^ size = 2 ^ (size - inWidth) * 2 ^ inWidth := by
    rw [← Nat.pow_add, Nat.sub_add_cancel (by omega)]
  have kept : word <<< inWidth % 2 ^ size = word % 2 ^ (size - inWidth) * 2 ^ inWidth := by
    rw [Nat.shiftLeft_eq, room, Nat.mul_mod_mul_right]
  have joined : shiftIn size inWidth word digit
      = word % 2 ^ (size - inWidth) * 2 ^ inWidth + digit := by
    rw [shiftIn, kept, Nat.mul_comm, Nat.two_pow_add_eq_or_of_lt small]
  have low : word % 2 ^ (size - inWidth) % 2 ^ pending = word % 2 ^ pending :=
    Nat.mod_mod_of_dvd _ (Nat.pow_dvd_pow 2 (by omega))
  rw [joined, Nat.pow_add, Nat.mul_comm (2 ^ pending), Nat.mod_mul, Nat.mul_add_mod_self_right,
    Nat.mod_eq_of_lt small, Nat.add_comm (_ * _) digit, Nat.add_mul_div_right _ _ (by positivity),
    Nat.div_eq_of_lt small, Nat.zero_add, low]
  ring

theorem Holds.shiftedIn {digit : Nat} (holds : Holds inWidth outWidth read written pending word)
    (fits : pending + inWidth ≤ size) (small : digit < 2 ^ inWidth)
    : Holds inWidth outWidth (read ++ [digit]) written (pending + inWidth)
        (shiftIn size inWidth word digit) where
  count := by
    rw [List.length_append, List.length_singleton, Nat.mul_add, holds.count]
    omega
  value := by
    rw [number_append, shiftIn_pending fits small, holds.value, Nat.pow_add]
    ring

/-- The pending bits are the digit taken out and the bits pending behind it. -/
theorem pending_split (enough : outWidth ≤ pending)
    : word % 2 ^ pending
      = takeOut outWidth pending word * 2 ^ (pending - outWidth)
        + word % 2 ^ (pending - outWidth) := by
  have whole : 2 ^ pending = 2 ^ (pending - outWidth) * 2 ^ outWidth := by
    rw [← Nat.pow_add, Nat.sub_add_cancel enough]
  rw [takeOut, Nat.shiftRight_eq_div_pow, whole, Nat.mod_mul, Nat.mul_comm, Nat.add_comm]

theorem Holds.takenOut (holds : Holds inWidth outWidth read written pending word)
    (enough : outWidth ≤ pending)
    : Holds inWidth outWidth read (written ++ [takeOut outWidth pending word])
        (pending - outWidth) word where
  count := by
    rw [List.length_append, List.length_singleton, Nat.mul_add, holds.count]
    omega
  value := by
    have whole : 2 ^ pending = 2 ^ outWidth * 2 ^ (pending - outWidth) := by
      rw [← Nat.pow_add, Nat.add_sub_cancel' enough]
    rw [number_append, holds.value, pending_split enough, whole]
    ring

theorem Holds.filledUp (holds : Holds inWidth outWidth read written pending word)
    (few : pending ≤ outWidth) (fits : outWidth ≤ size)
    : Padded inWidth outWidth read (written ++ [fillUp size outWidth pending word])
        (outWidth - pending) where
  count := by
    rw [List.length_append, List.length_singleton, Nat.mul_add, holds.count]
    omega
  value := by
    have whole : 2 ^ outWidth = 2 ^ pending * 2 ^ (outWidth - pending) := by
      rw [← Nat.pow_add, Nat.add_sub_cancel' few]
    have filled : fillUp size outWidth pending word
        = word % 2 ^ pending * 2 ^ (outWidth - pending) := by
      rw [fillUp, Nat.mod_mod_of_dvd _ (Nat.pow_dvd_pow 2 fits), Nat.shiftLeft_eq,
        whole, Nat.mul_mod_mul_right]
    rw [number_append, filled, holds.value, whole]
    ring

/-- Where nothing is pending, nothing is padded. -/
theorem Holds.padded (holds : Holds inWidth outWidth read written 0 word)
    : Padded inWidth outWidth read written 0 where
  count := holds.count
  value := by
    rw [holds.value]
    simp [Nat.mod_one]

/-- Digits that were regrouped and padded are regrouped back, whatever the words held above their
pending bits.
-/
theorem Padded.regrouped_back {padding : Nat} {again : List Nat}
    (padded : Padded inWidth outWidth read written padding)
    (holds : Holds outWidth inWidth written again pending word) (short : padding < inWidth)
    (few : pending < inWidth) (small : ∀ digit ∈ read, digit < 2 ^ inWidth)
    (smallAgain : ∀ digit ∈ again, digit < 2 ^ inWidth)
    : again = read := by
  have counts : inWidth * read.length + padding = inWidth * again.length + pending :=
    padded.count.trans holds.count
  have rest : padding = pending := by
    have remainders := congrArg (· % inWidth) counts
    simpa [Nat.mul_add_mod, Nat.mod_eq_of_lt short, Nat.mod_eq_of_lt few] using remainders
  subst rest
  have length : again.length = read.length :=
    Nat.eq_of_mul_eq_mul_left (by omega) (by omega : inWidth * again.length = inWidth * read.length)
  have values := padded.value.symm.trans holds.value
  have same : number inWidth read = number inWidth again := by
    have quotients := congrArg (· / 2 ^ padding) values
    have below : word % 2 ^ padding < 2 ^ padding := Nat.mod_lt _ (Nat.two_pow_pos padding)
    simpa [Nat.add_comm (_ * _), Nat.add_mul_div_right, Nat.div_eq_of_lt below] using quotients
  exact number_inj (by omega) length smallAgain small same.symm

end Cixtech.Foundation.Regrouping
