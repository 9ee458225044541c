import SessionPlan.Proofs.Toml.Forward

/-! What the reader of TOML passes when it reads a number, a date or a time, or a value of any other
kind without parts. -/
namespace SessionPlan.Toml
open SessionPlan.Text
variable {s rest : List Char}

/-! ### Numbers, dates and times -/

/-- The digits that are read stand there, with bars between them. -/
theorem barredDigits_run (isDigit : Char → Bool) (s : List Char) :
    ∃ front, s = front ++ (barredDigits isDigit s).2 ∧
      (∀ c ∈ front, isDigit c = true ∨ c = '_') ∧
      (isDigit '_' = false → front.countP isDigit = (barredDigits isDigit s).1.length) := by
  fun_induction barredDigits isDigit s with
  | case1 c rest digit digits after read ih =>
    rw [read] at ih
    obtain ⟨front, rfl, known, count⟩ := ih
    exact ⟨'_' :: c :: front, rfl, by simpa [digit] using known,
      fun bar => by simp [bar, digit, count]⟩
  | case2 => exact ⟨[], rfl, nofun, fun _ => rfl⟩
  | case3 c rest _ digit digits after read ih =>
    rw [read] at ih
    obtain ⟨front, rfl, known, count⟩ := ih
    exact ⟨c :: front, rfl, by simpa [digit] using known, fun bar => by simp [digit, count bar]⟩
  | case4 => exact ⟨[], rfl, nofun, fun _ => rfl⟩
  | case5 => exact ⟨[], rfl, nofun, fun _ => rfl⟩

theorem digits_run (isDigit : Char → Bool) (s : List Char) :
    ∃ front, s = front ++ (digits isDigit s).2 ∧ (∀ c ∈ front, isDigit c = true ∨ c = '_') ∧
      (isDigit '_' = false → front.countP isDigit = (digits isDigit s).1.length) := by
  unfold digits
  split
  · exact barredDigits_run isDigit s
  · exact ⟨[], rfl, nofun, fun _ => rfl⟩

theorem digits_leaves {isDigit : Char → Bool} (clean : ∀ c, isDigit c = true → IsClean c)
    (s : List Char) : Leaves s (digits isDigit s).2 := by
  obtain ⟨front, cut, known, -⟩ := digits_run isDigit s
  refine ⟨front, cut, fun c member => ?_⟩
  rcases known c member with digit | rfl
  · exact clean c digit
  · decide

theorem markedInteger?_leaves {n : Nat} (read : markedInteger? s = some (n, rest)) :
    Leaves s rest := by
  have marked {mark : Char} {base : Nat} {isDigit : Char → Bool} {after : List Char}
      (clean : ∀ c, isDigit c = true → IsClean c) (letter : IsClean mark)
      (read : (if (digits isDigit after).1.isEmpty then none
        else some (natOf base (digits isDigit after).1, (digits isDigit after).2)) =
          some (n, rest)) : Leaves ('0' :: mark :: after) rest := by
    split at read
    · cases read
    · cases read
      exact .cons (by decide) (.cons letter (digits_leaves clean after))
  unfold markedInteger? at read
  dsimp only at read
  split at read
  · exact marked (fun _ => isClean_of_hexValue?) (by decide) read
  · refine marked (fun c octal => ?_) (by decide) read
    have inside : '0' ≤ c ∧ c ≤ '7' := by simpa using octal
    exact isClean_of_between inside (by decide) (by decide)
  · refine marked (fun c binary => ?_) (by decide) read
    simp only [Bool.or_eq_true, beq_iff_eq] at binary
    rcases binary with rfl | rfl <;> decide
  · cases read

theorem fraction_leaves (s : List Char) : Leaves s (fraction s).2 := by
  unfold fraction
  split
  · dsimp only
    split
    · exact .refl _
    · exact .cons (by decide) (digits_leaves (fun _ => isClean_of_isDigitChar) _)
  · exact .refl s

theorem sign_leaves {negative : Bool} (signed : (match s with
    | '-' :: rest => (true, rest)
    | '+' :: rest => (false, rest)
    | rest => (false, rest)) = (negative, rest)) : Leaves s rest := by
  split at signed
  · cases signed
    exact .cons (by decide) (.refl _)
  · cases signed
    exact .cons (by decide) (.refl _)
  · cases signed
    exact .refl _

theorem exponent?_leaves {e : Int} (read : exponent? s = some (e, rest)) : Leaves s rest := by
  unfold exponent? at read
  split at read
  · rename_i mark after
    split at read
    · rename_i letter
      have clean : IsClean mark := by rcases letter with rfl | rfl <;> decide
      split at read
      rename_i negative unsigned signed
      have left := digits_leaves (fun _ => isClean_of_isDigitChar) unsigned
      dsimp only at read
      split at read
      · cases read
      · cases read
        exact .cons clean ((sign_leaves signed).trans left)
    · cases read
  · cases read

/-- The whole part of a decimal number has its digits in the text. -/
theorem wholePart_leaves {whole : List Char} (counted : (match s with
    | '0' :: rest => (['0'], rest)
    | _ => digits isDigitChar s) = (whole, rest)) :
    Leaves s rest ∧ HoldsDigits s whole.length := by
  split at counted
  · rename_i after
    cases counted
    have zero : isDigitChar '0' = true := by decide
    exact ⟨.cons (by decide) (.refl _), ['0'], ⟨[], rest, rfl⟩, by simp [zero], by simp [zero]⟩
  · have left := digits_leaves (fun _ => isClean_of_isDigitChar) s
    obtain ⟨front, cut, known, count⟩ := digits_run isDigitChar s
    rw [counted] at left cut count
    exact ⟨left, front, ⟨[], rest, cut.symm⟩, known, count (by decide)⟩

/-- A decimal number is read, or it is an integer that is too long. -/
theorem decimal?_reads {found : Except Error (Tree × List Char)} (read : decimal? s = some found) :
    Reads s found := by
  unfold decimal? at read
  split at read
  rename_i negative unsigned signed
  split at read
  rename_i whole afterWhole counted
  obtain ⟨digits, stands⟩ := wholePart_leaves counted
  have sign : Leaves s unsigned := sign_leaves signed
  have point : Leaves s (fraction afterWhole).2 := calc
    Leaves s unsigned := sign
    Leaves _ afterWhole := digits
    Leaves _ _ := fraction_leaves afterWhole
  dsimp only at read
  split at read
  · cases read
  · split at read
    · rename_i power
      cases read
      exact .ok (point.trans (exponent?_leaves power))
    · cases read
      refine .ite (.ok point) ?_
      split
      · exact .ok point
      · rename_i many
        have long : digitLimit < whole.length := by simpa [allowsDigits] using many
        have found : (Flaw.overlong whole.length).IsFoundIn unsigned := ⟨long, stands⟩
        exact .error (.here (found.mono sign.isInfix) (.refl s))

theorem number?_reads {found : Except Error (Tree × List Char)} (read : number? s = some found) :
    Reads s found := by
  unfold number? at read
  split at read
  · rename_i marked
    cases read
    exact .ok (markedInteger?_leaves marked)
  · exact decimal?_reads read

theorem twoDigits?_leaves {least most n : Nat} (read : twoDigits? least most s = some (n, rest)) :
    Leaves s rest := by
  unfold twoDigits? at read
  split at read
  · dsimp only at read
    split at read
    · rename_i digits
      simp only [Bool.and_eq_true] at digits
      cases read
      exact .cons (isClean_of_isDigitChar digits.1.1.1)
        (.cons (isClean_of_isDigitChar digits.1.1.2) (.refl rest))
    · cases read
  · cases read

theorem expect?_leaves {c : Char} (clean : IsClean c) (read : expect? c s = some rest) :
    Leaves s rest := by
  unfold expect? at read
  split at read
  · split at read
    · rename_i same
      cases read
      exact .cons (same ▸ clean) (.refl rest)
    · cases read
  · cases read

theorem secondFraction_leaves (s : List Char) : Leaves s (secondFraction s).2 := by
  unfold secondFraction
  split
  · dsimp only
    split
    · exact .refl _
    · rw [drop_takeWhile]
      exact .cons (by decide) (.dropWhile (fun _ => isClean_of_isDigitChar) _)
  · exact .refl s

theorem clock?_leaves {clock : Calendar.Clock} (read : clock? s = some (clock, rest)) :
    Leaves s rest := by
  unfold clock? at read
  obtain ⟨⟨hour, afterHour⟩, hours, read⟩ := Option.bind_eq_some_iff.mp read
  obtain ⟨afterColon, colon, read⟩ := Option.bind_eq_some_iff.mp read
  obtain ⟨⟨minute, afterMinute⟩, minutes, read⟩ := Option.bind_eq_some_iff.mp read
  obtain ⟨beforeSecond, colon', read⟩ := Option.bind_eq_some_iff.mp read
  obtain ⟨⟨second, afterSecond⟩, seconds, read⟩ := Option.bind_eq_some_iff.mp read
  cases read
  have clean : IsClean ':' := by decide
  calc
    Leaves s afterHour := twoDigits?_leaves hours
    Leaves _ afterColon := expect?_leaves clean colon
    Leaves _ afterMinute := twoDigits?_leaves minutes
    Leaves _ beforeSecond := expect?_leaves clean colon'
    Leaves _ afterSecond := twoDigits?_leaves seconds
    Leaves _ _ := secondFraction_leaves afterSecond

theorem date?_leaves {date : Calendar.Date} (read : date? s = some (date, rest)) :
    Leaves s rest := by
  unfold date? at read
  dsimp only at read
  split at read
  · cases read
  · rename_i year
    simp only [Bool.or_eq_true, not_or, Bool.not_eq_true', Bool.not_eq_false, decide_eq_true_eq,
      List.all_eq_true] at year
    obtain ⟨afterDash, dash, read⟩ := Option.bind_eq_some_iff.mp read
    obtain ⟨⟨month, afterMonth⟩, months, read⟩ := Option.bind_eq_some_iff.mp read
    obtain ⟨beforeDay, dash', read⟩ := Option.bind_eq_some_iff.mp read
    obtain ⟨⟨day, afterDay⟩, days, read⟩ := Option.bind_eq_some_iff.mp read
    cases read
    have clean : IsClean '-' := by decide
    calc
      Leaves s (s.drop 4) := .drop fun c member => isClean_of_isDigitChar (year.2 c member)
      Leaves _ afterDash := expect?_leaves clean dash
      Leaves _ afterMonth := twoDigits?_leaves months
      Leaves _ beforeDay := expect?_leaves clean dash'
      Leaves _ _ := twoDigits?_leaves days

theorem numericOffset?_leaves {sign : Char} {seconds : Int}
    (read : numericOffset? sign s = some (seconds, rest)) : IsClean sign ∧ Leaves s rest := by
  unfold numericOffset? at read
  dsimp only at read
  by_cases isSign : sign ≠ '+' ∧ sign ≠ '-'
  · rw [if_pos isSign] at read
    cases read
  · rw [if_neg isSign] at read
    obtain ⟨⟨hours, afterHours⟩, hour, read⟩ := Option.bind_eq_some_iff.mp read
    obtain ⟨afterColon, colon, read⟩ := Option.bind_eq_some_iff.mp read
    obtain ⟨⟨minutes, afterMinutes⟩, minute, read⟩ := Option.bind_eq_some_iff.mp read
    cases read
    refine ⟨?_, ?_⟩
    · have known : sign = '+' ∨ sign = '-' :=
        Decidable.byContradiction fun other => isSign (not_or.mp other)
      rcases known with rfl | rfl <;> decide
    · calc
        Leaves s afterHours := twoDigits?_leaves hour
        Leaves _ afterColon := expect?_leaves (by decide) colon
        Leaves _ _ := twoDigits?_leaves minute

theorem offset_leaves (s : List Char) : Leaves s (offset s).2 := by
  unfold offset
  split
  · split
    · rename_i universal
      exact .cons (by rcases universal with rfl | rfl <;> decide) (.refl _)
    · split
      · rename_i numeric
        obtain ⟨clean, left⟩ := numericOffset?_leaves numeric
        exact .cons clean left
      · exact .refl _
  · exact .refl _

theorem dateOrMoment?_leaves {date : Calendar.Date}
    {time : Option (Calendar.Clock × Option Int)}
    (read : dateOrMoment? s = some (date, time, rest)) : Leaves s rest := by
  unfold dateOrMoment? at read
  obtain ⟨⟨day, afterDate⟩, dated, read⟩ := Option.bind_eq_some_iff.mp read
  have left := date?_leaves dated
  dsimp only at read
  split at read
  · cases read
    exact left
  · rename_i clock afterClock timed
    cases read
    have clocked : Leaves afterDate afterClock := by
      split at timed
      · split at timed
        · rename_i gap
          exact .cons (by rcases gap with rfl | rfl | rfl <;> decide) (clock?_leaves timed)
        · cases timed
      · cases timed
    calc
      Leaves s afterDate := left
      Leaves _ afterClock := clocked
      Leaves _ _ := offset_leaves afterClock

theorem scalar_reads (s : List Char) : Reads s (scalar s) := by
  unfold scalar
  split
  · rename_i read
    have left := dateOrMoment?_leaves read
    refine .ite (.error (.here trivial (.refl s))) ?_
    split
    · exact .ok left
    · exact .ok left
  · split
    · rename_i read
      exact .ok (clock?_leaves read)
    · rename_i found _ read
      exact number?_reads read
    · split
      · rename_i word x found
        have each : ∀ entry ∈ specialNumbers, AreClean entry.1 := by decide
        have clean := each _ (List.mem_of_find?_eq_some found)
        have begins := List.find?_some found
        obtain ⟨after, rfl⟩ := List.isPrefixOf_iff_prefix.mp begins
        rw [List.drop_left]
        exact .ok (.append clean)
      · exact .error (.here trivial (.refl s))

end SessionPlan.Toml
