import SessionPlan.Proofs.Failure
import SessionPlan.Proofs.Lists
import SessionPlan.Toml.Reader

/-! The reader of TOML only goes forward, and it passes no control character but tabs and line
feeds: any other is itself an error where it stands. Here this is said of strings and keys. -/
namespace SessionPlan.Toml
open SessionPlan.Text

/-- A character that text may hold: it is a tab or a line feed, or no control character. -/
def IsClean (c : Char) : Prop := isControlInLines c = false

instance : DecidablePred IsClean := fun c => inferInstanceAs (Decidable (isControlInLines c = false))

def AreClean (s : List Char) : Prop := ∀ c ∈ s, IsClean c

-- character by character, for a test of all characters there are would never end
instance : DecidablePred AreClean := fun s => List.decidableBAll IsClean s

/-- What is left of `s` after a part of clean characters. -/
def Leaves (s rest : List Char) : Prop := ∃ front, s = front ++ rest ∧ AreClean front

/-- So many digits stand together in the text, with nothing but bars between them. -/
def HoldsDigits (s : List Char) (count : Nat) : Prop :=
  ∃ numeral, numeral <:+: s ∧ (∀ c ∈ numeral, isDigitChar c = true ∨ c = '_') ∧
    numeral.countP isDigitChar = count

/-- Flaws that the reader can find in a text: it misses no quotes but those of literal text, the
characters that it refuses are control characters, and a number that is too long stands there. -/
def Flaw.IsFoundIn (s : List Char) : Flaw → Prop
  | .quoteMissing quote => quote = "'" ∨ quote = "'''"
  | .characterInvalid c | .characterIllegal c => isControl c = true
  | .overlong count => digitLimit < count ∧ HoldsDigits s count
  | _ => True

theorem Flaw.IsFoundIn.mono {flaw : Flaw} {s whole : List Char} (found : flaw.IsFoundIn s)
    (inside : s <:+: whole) : flaw.IsFoundIn whole := by
  unfold IsFoundIn at found ⊢
  split at found
  · exact found
  · exact found
  · exact found
  · obtain ⟨many, numeral, stands, digits⟩ := found
    exact ⟨many, numeral, stands.trans inside, digits⟩
  · trivial

/-- The error is found at the end, or after clean characters, or one character further. -/
structure Error.FoundIn (s : List Char) (e : Error) : Prop where
  place : e.rest = [] ∨ Leaves s e.rest ∨ ∃ c, Leaves s (c :: e.rest)
  flaw : e.flaw.IsFoundIn s

/-- A reader that begins at `s`: it goes on after clean characters, or it finds an error. -/
abbrev Reads (s : List Char) (x : Except Error (α × List Char)) : Prop :=
  Yields (Error.FoundIn s) (fun found => Leaves s found.2) x

variable {s rest : List Char}

/-! ### Going forward -/

theorem isClean_of_printable {c : Char} (above : 0x20 ≤ c.toNat) (below : c.toNat < 0x7f) :
    IsClean c := by
  simp only [IsClean, isControlInLines, isControl, Bool.and_eq_false_iff, Bool.or_eq_false_iff,
    decide_eq_false_iff_not, beq_eq_false_iff_ne]
  left; left
  omega

theorem isClean_of_between {low high c : Char} (inside : low ≤ c ∧ c ≤ high)
    (above : 0x20 ≤ low.toNat) (below : high.toNat < 0x7f) : IsClean c := by
  have first : low.toNat ≤ c.toNat := inside.1
  have last : c.toNat ≤ high.toNat := inside.2
  exact isClean_of_printable (by omega) (by omega)

namespace Leaves

theorem refl (s : List Char) : Leaves s s := ⟨[], rfl, nofun⟩

theorem trans {middle : List Char} (first : Leaves s middle) (later : Leaves middle rest) :
    Leaves s rest := by
  obtain ⟨front, rfl, clean⟩ := first
  obtain ⟨next, rfl, also⟩ := later
  exact ⟨front ++ next, (List.append_assoc ..).symm, List.forall_mem_append.mpr ⟨clean, also⟩⟩

instance : Trans Leaves Leaves Leaves := ⟨trans⟩

theorem append {front : List Char} (clean : AreClean front) :
    Leaves (front ++ rest) rest := ⟨front, rfl, clean⟩

theorem cons {c : Char} (clean : IsClean c) (later : Leaves s rest) : Leaves (c :: s) rest := by
  have first : Leaves ([c] ++ s) s := append (by simpa [AreClean] using clean)
  exact first.trans later

theorem tail {c : Char} (left : Leaves s (c :: rest)) (clean : IsClean c) : Leaves s rest :=
  left.trans (cons clean (refl rest))

theorem dropWhile {p : Char → Bool} (clean : ∀ c, p c = true → IsClean c) (s : List Char) :
    Leaves s (s.dropWhile p) :=
  ⟨s.takeWhile p, List.takeWhile_append_dropWhile.symm, fun _ member =>
    clean _ (List.all_eq_true.mp List.all_takeWhile _ member)⟩

theorem drop {n : Nat} (clean : AreClean (s.take n)) : Leaves s (s.drop n) :=
  ⟨s.take n, (List.take_append_drop n s).symm, clean⟩

theorem isInfix (left : Leaves s rest) : rest <:+: s := by
  obtain ⟨front, rfl, -⟩ := left
  exact (List.suffix_append front rest).isInfix

end Leaves

theorem Error.FoundIn.after {e : Error} (found : e.FoundIn rest) (forward : Leaves s rest) :
    e.FoundIn s where
  place := by
    rcases found.place with ended | here | ⟨c, further⟩
    · exact .inl ended
    · exact .inr (.inl (forward.trans here))
    · exact .inr (.inr ⟨c, forward.trans further⟩)
  flaw := found.flaw.mono forward.isInfix

theorem Error.FoundIn.here {flaw : Flaw} (known : flaw.IsFoundIn s) (forward : Leaves s rest) :
    Error.FoundIn s ⟨flaw, rest⟩ := ⟨.inr (.inl forward), known⟩

/-- What is read later is read from here. -/
theorem Reads.after {x : Except Error (α × List Char)} (forward : Leaves s rest)
    (reads : Reads rest x) : Reads s x :=
  reads.mono (fun _ found => found.after forward) fun _ left => forward.trans left

theorem Reads.map {x : Except Error (α × List Char)} {f : α × List Char → β × List Char}
    (reads : Reads s x) (same : ∀ found, (f found).2 = found.2) : Reads s (x.map f) := by
  cases x with
  | error e => exact .error (reads.fails e rfl)
  | ok found => exact .ok (by rw [same]; exact reads.gives found rfl)

theorem isClean_of_isSpaceOrBreak {c : Char} (h : isSpaceOrBreak c = true) : IsClean c := by
  simp only [isSpaceOrBreak, isSpace, Bool.or_eq_true, beq_iff_eq] at h
  rcases h with (rfl | rfl) | rfl <;> decide

theorem isClean_of_isSpace {c : Char} (h : isSpace c = true) : IsClean c :=
  isClean_of_isSpaceOrBreak (by rw [isSpaceOrBreak, h, Bool.true_or])

theorem isClean_of_not_isControl {c : Char} (h : isControl c = false) : IsClean c := by
  rw [IsClean, isControlInLines, h, Bool.false_and]

theorem skipSpace_leaves (s : List Char) : Leaves s (skipSpace s) :=
  .dropWhile (fun _ => isClean_of_isSpace) s

/-! ### Strings -/

theorem splitAt?_eq_some {mark before after : List Char} (found : splitAt? mark s =
    some (before, after)) : s = before ++ after ∧ mark <+: after := by
  induction s generalizing before with
  | nil => cases found
  | cons c rest ih =>
    rw [splitAt?] at found
    split at found
    · rename_i here
      cases found
      exact ⟨rfl, List.isPrefixOf_iff_prefix.mp here⟩
    · obtain ⟨⟨next, last⟩, later, same⟩ := Option.map_eq_some_iff.mp found
      cases same
      obtain ⟨rfl, marked⟩ := ih later
      exact ⟨rfl, marked⟩

theorem firstIllegal?_eq_some {illegal : Char → Bool} {before after : List Char} {c : Char}
    (found : firstIllegal? illegal before after = some (c, rest)) :
    illegal c = true ∧ ∃ front, before ++ after = front ++ rest ∧
      ∀ c ∈ front, illegal c = false := by
  induction before with
  | nil => cases found
  | cons d before ih =>
    rw [firstIllegal?] at found
    split at found
    · rename_i here
      cases found
      exact ⟨here, [], rfl, nofun⟩
    · rename_i legal
      obtain ⟨isIllegal, front, same, clean⟩ := ih found
      exact ⟨isIllegal, d :: front, by rw [List.cons_append, same, List.cons_append],
        List.forall_mem_cons.mpr ⟨by simpa using legal, clean⟩⟩

theorem firstIllegal?_eq_none {illegal : Char → Bool} {before after : List Char}
    (none : firstIllegal? illegal before after = none) : ∀ c ∈ before, illegal c = false := by
  induction before with
  | nil => exact nofun
  | cons d before ih =>
    rw [firstIllegal?] at none
    split at none
    · cases none
    · rename_i legal
      exact List.forall_mem_cons.mpr ⟨by simpa using legal, ih none⟩

theorem literalUntil_reads {quote : List Char}
    (known : String.ofList quote = "'" ∨ String.ofList quote = "'''")
    {illegal : Char → Bool} (clean : ∀ c, illegal c = false → IsClean c)
    (control : ∀ c, illegal c = true → isControl c = true) (s : List Char) :
    Reads s (literalUntil quote illegal s) := by
  unfold literalUntil
  split
  · exact .error ⟨.inl rfl, known⟩
  · rename_i before after cut
    obtain ⟨rfl, last, rfl⟩ := splitAt?_eq_some cut
    split
    · rename_i c rest found
      obtain ⟨isIllegal, front, same, legal⟩ := firstIllegal?_eq_some found
      exact .error ⟨.inr (.inl ⟨front, same, fun c member => clean c (legal c member)⟩),
        control c isIllegal⟩
    · rename_i none
      have legal := firstIllegal?_eq_none none
      have quoted : AreClean quote := by
        have marks : AreClean (String.ofList quote).toList := by
          rcases known with same | same <;> rw [same] <;> decide
        rwa [String.toList_ofList] at marks
      rw [List.drop_left]
      exact .ok ((Leaves.append fun c member => clean c (legal c member)).trans (.append quoted))

theorem literalString_reads (s : List Char) : Reads s (literalString s) :=
  literalUntil_reads (.inl rfl) (fun _ => isClean_of_not_isControl) (fun _ => id) s

theorem isClean_of_isDigitChar {c : Char} (h : isDigitChar c = true) : IsClean c := by
  have inside : '0' ≤ c ∧ c ≤ '9' := by simpa [isDigitChar] using h
  exact isClean_of_between inside (by decide) (by decide)

theorem isClean_of_hexValue? {c : Char} (h : (hexValue? c).isSome = true) : IsClean c := by
  unfold hexValue? at h
  split at h
  · rename_i digit
    exact isClean_of_isDigitChar digit
  · split at h
    · rename_i letter
      have inside : 'a' ≤ c ∧ c ≤ 'f' := by simpa using letter
      exact isClean_of_between inside (by decide) (by decide)
    · split at h
      · rename_i letter
        have inside : 'A' ≤ c ∧ c ≤ 'F' := by simpa using letter
        exact isClean_of_between inside (by decide) (by decide)
      · cases h

theorem isSome_of_mapM {f : α → Option β} {items : List α} {out : List β}
    (done : items.mapM f = some out) : ∀ a ∈ items, (f a).isSome = true := by
  induction items generalizing out with
  | nil => exact nofun
  | cons a rest ih =>
    rw [List.mapM_cons] at done
    obtain ⟨b, first, done⟩ := Option.bind_eq_some_iff.mp done
    obtain ⟨later, others, -⟩ := Option.bind_eq_some_iff.mp done
    exact List.forall_mem_cons.mpr ⟨Option.isSome_of_eq_some first, ih others⟩

theorem hexChar_reads (count : Nat) (s : List Char) : Reads s (hexChar count s) := by
  unfold hexChar
  dsimp only
  split
  · exact .error (.here trivial (.refl s))
  · rename_i values known
    have clean : AreClean (s.take count) := fun c member =>
      isClean_of_hexValue? (isSome_of_mapM known c member)
    refine .ite (.error (.here trivial (.refl s))) (.ite (.ok (.drop clean)) ?_)
    exact .error (.here trivial (.drop clean))

theorem isClean_of_escapes {c ch : Char} (known : escapes.lookup c = some ch) : IsClean c := by
  have each : ∀ entry ∈ escapes, IsClean entry.1 := by decide
  obtain ⟨before, after, same, -⟩ := List.lookup_eq_some_iff.mp known
  exact each (c, ch) (same ▸ by simp)

/-- A character that no escape begins with has been passed when it is reported. -/
theorem escapeSequence_reads (multiline : Bool) (s : List Char) :
    Reads s (escapeSequence multiline s) := by
  unfold escapeSequence
  split
  · exact .error (.here trivial (.refl []))
  · rename_i c rest
    split
    · have spaces := skipSpace_leaves (c :: rest)
      split
      · rename_i ended
        exact .ok (ended ▸ spaces)
      · rename_i after ended
        rw [ended] at spaces
        exact .ok (spaces.trans (.cons (by decide) (.dropWhile
          (fun _ => isClean_of_isSpaceOrBreak) after)))
      · exact .error (.here trivial spaces)
    · have long {count : Nat} {f : Char × List Char → List Char × List Char} (clean : IsClean c)
          (keeps : ∀ found, (f found).2 = found.2) : Reads (c :: rest) ((hexChar count rest).map f) :=
        .after (.cons clean (.refl rest)) (.map (hexChar_reads count rest) keeps)
      split
      · rename_i same
        exact long (same ▸ by decide) fun _ => rfl
      · split
        · rename_i same
          exact long (same ▸ by decide) fun _ => rfl
        · split
          · rename_i known
            exact .ok (.cons (isClean_of_escapes known) (.refl rest))
          · exact .error ⟨.inr (.inr ⟨c, .refl _⟩), trivial⟩

theorem basicChars_reads (multiline : Bool) (fuel : Nat) (s : List Char) :
    Reads s (basicChars multiline fuel s) := by
  induction fuel generalizing s with
  | zero => cases s <;> exact .error (.here trivial (.refl _))
  | succ fuel ih =>
    cases s with
    | nil => exact .error (.here trivial (.refl _))
    | cons c rest =>
      have goesOn (piece : List Char) {after : List Char} (forward : Leaves (c :: rest) after) :
          Reads (c :: rest) (basicChars multiline fuel after >>= fun found =>
            pure (piece ++ found.1, found.2)) :=
        (Reads.after forward (ih after)).bind fun _ left => .ok left
      unfold basicChars
      split
      · rename_i quote
        simp only [Bool.and_eq_true, decide_eq_true_eq] at quote
        exact .ok (.cons (quote.1 ▸ by decide) (.refl rest))
      · split
        · rename_i quotes
          simp only [Bool.and_eq_true, decide_eq_true_eq] at quotes
          obtain ⟨after, rfl⟩ := List.isPrefixOf_iff_prefix.mp quotes.2
          exact .ok (.cons (quotes.1 ▸ by decide) (.append (by decide)))
        · split
          · rename_i escape
            have clean : IsClean c := escape ▸ by decide
            refine (Reads.after (.cons clean (.refl rest)) (escapeSequence_reads multiline rest)).bind
              fun found left => goesOn _ left
          · split
            · rename_i illegal
              simp only [Bool.and_eq_true] at illegal
              exact .error (.here illegal.1 (.refl _))
            · rename_i legal
              have clean : IsClean c := by
                cases control : isControl c with
                | false => exact isClean_of_not_isControl control
                | true =>
                  have feed : multiline = true ∧ c = '\n' := by simpa [control] using legal
                  exact feed.2 ▸ by decide
              exact goesOn [c] (.cons clean (.refl rest))

theorem basicString_reads (s : List Char) : Reads s (basicString s) :=
  (basicChars_reads false _ s).bind fun _ left => .ok left

theorem extraQuotes_leaves {quote : Char} (clean : IsClean quote) (text : String) (s : List Char) :
    Leaves s (extraQuotes quote text s).2 := by
  unfold extraQuotes
  split
  · rename_i a b rest
    split
    · rename_i first
      have one : IsClean a := first ▸ clean
      split
      · rename_i second
        exact .cons one (.cons (second ▸ clean) (.refl rest))
      · exact .cons one (.refl _)
    · exact .refl _
  · split
    · rename_i same
      exact .cons (same ▸ clean) (.refl _)
    · exact .refl _
  · exact .refl _

theorem multilineString_reads (literal : Bool) (s : List Char) :
    Reads s (multilineString literal s) := by
  have skipped : Leaves s (if s.head? = some '\n' then s.drop 1 else s) := by
    split
    · rename_i feed
      obtain ⟨rest, rfl⟩ := List.head?_eq_some_iff.mp feed
      exact .cons (by decide) (.refl rest)
    · exact .refl s
  unfold multilineString
  refine .ite ?_ ?_
  · have plain {c : Char} (h : isControlInLines c = true) : isControl c = true := by
      rw [isControlInLines, Bool.and_eq_true] at h
      exact h.1
    refine (Reads.after skipped (literalUntil_reads (.inr rfl) (fun _ => id) (fun _ => plain) _)).bind
      fun found left => ?_
    exact .ok (left.trans (extraQuotes_leaves (by decide) _ _))
  · refine (Reads.after skipped (basicChars_reads true _ _)).bind fun found left => ?_
    exact .ok (left.trans (extraQuotes_leaves (by decide) _ _))

/-! ### Keys -/

theorem isClean_of_isBareKeyChar {c : Char} (h : isBareKeyChar c = true) : IsClean c := by
  simp only [isBareKeyChar, Bool.or_eq_true, Bool.and_eq_true, decide_eq_true_eq,
    beq_iff_eq] at h
  rcases h with (((upper | lower) | digit) | rfl) | rfl
  · exact isClean_of_between upper (by decide) (by decide)
  · exact isClean_of_between lower (by decide) (by decide)
  · exact isClean_of_isDigitChar digit
  · decide
  · decide

theorem keyPart_reads (s : List Char) : Reads s (keyPart s) := by
  unfold keyPart
  split
  · exact .after (.cons (by decide) (.refl _)) (literalString_reads _)
  · exact .after (.cons (by decide) (.refl _)) (basicString_reads _)
  · refine .ite (.error (.here trivial (.refl s))) (.ok ?_)
    rw [drop_takeWhile]
    exact .dropWhile (fun _ => isClean_of_isBareKeyChar) s

theorem keyFrom_reads (fuel : Nat) (s : List Char) : Reads s (keyFrom fuel s) := by
  induction fuel generalizing s with
  | zero => exact .error (.here trivial (.refl s))
  | succ fuel ih =>
    unfold keyFrom
    refine (keyPart_reads s).bind fun ⟨part, after⟩ left => ?_
    have spaces := left.trans (skipSpace_leaves after)
    dsimp only
    split
    · rename_i rest dot
      rw [dot] at spaces
      have next := (spaces.tail (by decide)).trans (skipSpace_leaves rest)
      exact (Reads.after next (ih _)).bind fun _ left => .ok left
    · exact .ok spaces

theorem key_reads (s : List Char) : Reads s (key s) := keyFrom_reads _ s

end SessionPlan.Toml
