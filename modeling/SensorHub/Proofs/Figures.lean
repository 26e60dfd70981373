import SensorHub.Toml.Document

namespace SensorHub.Decimal

/-- The figures of a number are digits, and each stands for what its character says. -/
theorem digitValue?_of_isDigit {c : Char} (h : c.isDigit = true) :
    digitValue? c = some (c.toNat - 48) := by
  have hrange : '0' ≤ c ∧ c ≤ '9' := by
    simpa [Char.isDigit, Char.le_def] using h
  rw [digitValue?, if_pos hrange]

theorem isDigit_of_isDigit {c : Char} (h : c.isDigit = true) : isDigit 10 c = true := by
  have hrange : '0' ≤ c ∧ c ≤ '9' := by
    simpa [Char.isDigit, Char.le_def] using h
  have hmax : c.toNat ≤ 57 := hrange.2
  simp [isDigit, digitValue?_of_isDigit h]
  omega

theorem ofDigits_eq_ofDigitChars {digits : List Char} (h : ∀ c ∈ digits, c.isDigit = true) :
    ofDigits 10 digits = Nat.ofDigitChars 10 digits 0 := by
  suffices ∀ n, digits.foldl (fun n c => n * 10 + (digitValue? c).getD 0) n =
      Nat.ofDigitChars 10 digits n from this 0
  induction digits with
  | nil => simp
  | cons c digits ih =>
    intro n
    have hc : (digitValue? c).getD 0 = c.toNat - '0'.toNat := by
      rw [digitValue?_of_isDigit (h c (List.mem_cons_self ..))]
      rfl
    rw [List.foldl_cons, Nat.ofDigitChars_cons, hc, Nat.mul_comm 10 n]
    exact ih (fun d hd => h d (List.mem_cons_of_mem _ hd)) _

theorem isDigit_of_mem_figures {n : Nat} {c : Char} (h : c ∈ Nat.toDigits 10 n) :
    c.isDigit = true :=
  Nat.isDigit_of_mem_toDigits (by decide) (by decide) h

theorem ofDigits_toDigits (n : Nat) : ofDigits 10 (Nat.toDigits 10 n) = n := by
  rw [ofDigits_eq_ofDigitChars fun c => isDigit_of_mem_figures]
  exact Nat.ofDigitChars_ten_toDigits

theorem head?_toDigits_ne_zero {n : Nat} (h : n ≠ 0) : (Nat.toDigits 10 n).head? ≠ some '0' := by
  induction n using Nat.strongRecOn with
  | ind n ih =>
    rw [Nat.toDigits_eq_if (by decide)]
    split
    next => simpa using h
    next hge =>
      have hpos : n / 10 ≠ 0 := by omega
      have hsome : (Nat.toDigits 10 (n / 10)).head?.isSome = true := by
        simp
      rw [List.head?_append]
      obtain ⟨c, hc⟩ := Option.isSome_iff_exists.mp hsome
      rw [hc, Option.some_or, ← hc]
      exact ih (n / 10) (by omega) hpos

end SensorHub.Decimal

namespace SensorHub.Toml

open Decimal

variable {digits rest : List Char}

theorem moreDigits?_line (h : ∀ c ∈ digits, c.isDigit = true) :
    moreDigits? 10 (digits ++ '\n' :: rest) = some (digits, '\n' :: rest) := by
  induction digits with
  | nil => rfl
  | cons c digits ih =>
    have hdigit := isDigit_of_isDigit (h c (List.mem_cons_self ..))
    have hc : c ≠ '_' := by
      rintro rfl
      cases hdigit
    have hmore := ih fun d hd => h d (List.mem_cons_of_mem _ hd)
    simp [moreDigits?, hdigit, hmore, hc]

theorem digits?_line (h : ∀ c ∈ digits, c.isDigit = true) (filled : digits ≠ []) :
    digits? 10 (digits ++ '\n' :: rest) = some (digits, '\n' :: rest) := by
  cases digits with
  | nil => exact absurd rfl filled
  | cons c digits =>
    have hdigit := isDigit_of_isDigit (h c (List.mem_cons_self ..))
    have hmore : moreDigits? 10 (digits ++ '\n' :: rest) = some (digits, '\n' :: rest) :=
      moreDigits?_line fun d hd => h d (List.mem_cons_of_mem _ hd)
    simp [digits?, hdigit, hmore]

theorem exists_figures (n : Nat) :
    ∃ c figures, Nat.toDigits 10 n = c :: figures ∧ c.isDigit = true := by
  cases h : Nat.toDigits 10 n with
  | nil => exact absurd h Nat.toDigits_ne_nil
  | cons c figures =>
    exact ⟨c, figures, rfl, isDigit_of_mem_figures (h ▸ List.mem_cons_self ..)⟩

theorem wholeDigits?_figures (n : Nat) :
    wholeDigits? (Nat.toDigits 10 n ++ '\n' :: rest) = some (Nat.toDigits 10 n, '\n' :: rest) := by
  by_cases hn : n = 0
  · subst hn
    simp [wholeDigits?]
  · have hdigits := @digits?_line _ rest (fun c => isDigit_of_mem_figures) (@Nat.toDigits_ne_nil n 10)
    have hzero := head?_toDigits_ne_zero hn
    obtain ⟨c, figures, hfigures, -⟩ := exists_figures n
    rw [hfigures] at hdigits hzero ⊢
    unfold wholeDigits?
    split
    next heq =>
      cases heq
      simp at hzero
    next => exact hdigits

theorem sign_figures (n : Nat) :
    sign (Nat.toDigits 10 n ++ rest) = (false, Nat.toDigits 10 n ++ rest) := by
  obtain ⟨c, figures, hfigures, hdigit⟩ := exists_figures n
  rw [hfigures]
  unfold sign
  split
  next heq =>
    cases heq
    cases hdigit
  next heq =>
    cases heq
    cases hdigit
  next => rfl

theorem fixedNumber?_eq_some {count low high n : Nat} {s rest : List Char}
    (h : fixedNumber? count low high s = some (n, rest)) :
    (s.take count).length = count ∧ (s.take count).all (isDigit 10) = true ∧ rest = s.drop count := by
  unfold fixedNumber? at h
  dsimp only at h
  split at h
  next hs =>
    cases h
    exact ⟨hs.1, hs.2.1, rfl⟩
  next => cases h

/-- Behind so many figures neither a dash nor a colon follows on the line. -/
theorem char?_line {count low high n : Nat} {s : List Char} {c : Char}
    (h : ∀ c ∈ digits, c.isDigit = true) (odd : c.isDigit = false) (hc : c ≠ '\n')
    (hs : fixedNumber? count low high (digits ++ '\n' :: rest) = some (n, s)) :
    char? c s = none := by
  obtain ⟨hlength, hall, rfl⟩ := fixedNumber?_eq_some hs
  have hle : count ≤ digits.length := by
    apply Decidable.byContradiction
    intro hlt
    have hmem : '\n' ∈ (digits ++ '\n' :: rest).take count := by
      have hcount : count = digits.length + ((count - digits.length - 1) + 1) := by omega
      rw [hcount, List.take_length_add_append, List.take_succ_cons]
      simp
    have hdigit := List.all_eq_true.mp hall _ hmem
    cases hdigit
  rw [List.drop_append_of_le_length hle]
  cases hdrop : digits.drop count with
  | nil => simp [char?, hc.symm]
  | cons d later =>
    have hd := h d (List.mem_of_mem_drop (hdrop ▸ List.mem_cons_self ..))
    have hne : d ≠ c := by
      rintro rfl
      rw [odd] at hd
      cases hd
    simp [char?, hne]

theorem moment?_line (h : ∀ c ∈ digits, c.isDigit = true) :
    moment? (digits ++ '\n' :: rest) = none := by
  have hdate : date? (digits ++ '\n' :: rest) = none := by
    unfold date?
    cases hs : fixedNumber? 4 0 9999 (digits ++ '\n' :: rest) with
    | none => rfl
    | some read =>
      have hchar : char? '-' read.2 = none := char?_line h (by decide) (by decide) hs
      simp [hchar]
  have htime : time? (digits ++ '\n' :: rest) = none := by
    unfold time?
    cases hs : fixedNumber? 2 0 23 (digits ++ '\n' :: rest) with
    | none => rfl
    | some read =>
      have hchar : char? ':' read.2 = none := char?_line h (by decide) (by decide) hs
      simp [hchar]
  simp [moment?, hdate, htime]

/-- A figure differs from any character that is no digit. -/
theorem figure_ne {c d : Char} (hc : c.isDigit = true) (hd : d.isDigit = false) : c ≠ d := by
  rintro rfl
  rw [hd] at hc
  cases hc

/-- A number without point and exponent is no fraction. -/
theorem fraction?_figures (n : Nat) :
    fraction? (Nat.toDigits 10 n ++ '\n' :: rest) = none := by
  have hfinite : finiteFraction? (Nat.toDigits 10 n ++ '\n' :: rest) = none := by
    simp [finiteFraction?, sign_figures, wholeDigits?_figures]
  have hspecial : specialFraction? (Nat.toDigits 10 n ++ '\n' :: rest) = none := by
    obtain ⟨c, figures, hfigures, hdigit⟩ := exists_figures n
    have hi := figure_ne hdigit (show 'i'.isDigit = false by decide)
    have hn := figure_ne hdigit (show 'n'.isDigit = false by decide)
    rw [specialFraction?, sign_figures, hfigures]
    split
    next heq => simp_all
    next heq => simp_all
    next => rfl
  rw [fraction?, hfinite, hspecial]
  rfl

/-- The figures of a number within the range of whole numbers are read as that number. -/
theorem integer?_figures {n : Nat} (h : n < integerBound) :
    integer? (Nat.toDigits 10 n ++ '\n' :: rest) = some (.integer n, '\n' :: rest) := by
  have second : ∀ {c d more}, Nat.toDigits 10 n ++ '\n' :: rest = c :: d :: more →
      d.isDigit = true ∨ d = '\n' := by
    intro c d more heq
    obtain ⟨first, figures, hfigures, -⟩ := exists_figures n
    have hall := fun c => @isDigit_of_mem_figures n c
    rw [hfigures] at heq hall
    cases figures with
    | nil =>
      simp only [List.cons_append, List.nil_append, List.cons.injEq] at heq
      exact .inr heq.2.1.symm
    | cons e figures =>
      simp only [List.cons_append, List.cons.injEq] at heq
      rw [← heq.2.1]
      exact .inl (hall e (by simp))
  have hsign := @sign_figures ('\n' :: rest) n
  have hwhole := @wholeDigits?_figures rest n
  unfold integer?
  split
  next heq => rcases second heq with hx | hx <;> cases hx
  next heq => rcases second heq with ho | ho <;> cases ho
  next heq => rcases second heq with hb | hb <;> cases hb
  next => simp [hsign, hwhole, ofDigits_toDigits, integer64?, h]

theorem number?_figures {n : Nat} (h : n < integerBound) :
    number? (Nat.toDigits 10 n ++ '\n' :: rest) = some (.integer n, '\n' :: rest) := by
  rw [number?, moment?_line fun c => isDigit_of_mem_figures, fraction?_figures, integer?_figures h]
  rfl

theorem value?_figures {n : Nat} (h : n < integerBound) (depth : Nat) :
    value? depth (Nat.toDigits 10 n ++ '\n' :: rest) = some (.integer n, '\n' :: rest) := by
  have hnumber := @number?_figures rest n h
  obtain ⟨c, figures, hfigures, hdigit⟩ := exists_figures n
  have ne := fun d => @figure_ne c d hdigit
  rw [hfigures] at hnumber ⊢
  have hscalar : scalar? (c :: figures ++ '\n' :: rest) = some (.integer n, '\n' :: rest) := by
    unfold scalar?
    split
    next heq => cases heq
    next heq => exact absurd (List.cons.inj heq).1 (ne _ (by decide))
    next heq => exact absurd (List.cons.inj heq).1 (ne _ (by decide))
    next heq => exact absurd (List.cons.inj heq).1 (ne _ (by decide))
    next heq => exact absurd (List.cons.inj heq).1 (ne _ (by decide))
    next heq => exact absurd (List.cons.inj heq).1 (ne _ (by decide))
    next heq => exact absurd (List.cons.inj heq).1 (ne _ (by decide))
    next heq =>
      rw [← (List.cons.inj heq).1, isDigit_of_isDigit hdigit, Bool.or_true, if_pos rfl]
      exact hnumber
  cases depth with
  | zero => exact hscalar
  | succ depth =>
    unfold value?
    split
    next heq => exact absurd (List.cons.inj heq).1 (ne _ (by decide))
    next heq => exact absurd (List.cons.inj heq).1 (ne _ (by decide))
    next => exact hscalar

end SensorHub.Toml
