import SessionPlan.Proofs.Toml.Numbers

/-! Where an error of a TOML document is found. The reader has passed no character before it that
text may not hold, save for the one after a backslash, which is judged once it has been passed. -/
namespace SessionPlan.Toml
open SessionPlan.Text
variable {s rest : List Char}

/-! ### Values -/

theorem comment_finds (s : List Char) : Yields (Error.FoundIn s) (Leaves s) (comment s) := by
  unfold comment
  split
  · rename_i rest
    dsimp only
    rw [drop_takeWhile]
    have whole := List.takeWhile_append_dropWhile (p := (· != '\n')) (l := rest)
    split
    · rename_i c found illegal
      obtain ⟨control, front, same, legal⟩ := firstIllegal?_eq_some illegal
      rw [whole] at same
      have left : Leaves rest found :=
        ⟨front, same, fun c member => isClean_of_not_isControl (legal c member)⟩
      exact .error (.here control (.cons (by decide) left))
    · rename_i legal
      have clean := firstIllegal?_eq_none legal
      have left : Leaves rest (rest.dropWhile (· != '\n')) :=
        ⟨_, whole.symm, fun c member => isClean_of_not_isControl (clean c member)⟩
      exact .ok (.cons (by decide) left)
  · exact .ok (.refl s)

theorem arraySpace_finds (fuel : Nat) (s : List Char) :
    Yields (Error.FoundIn s) (Leaves s) (arraySpace fuel s) := by
  induction fuel generalizing s with
  | zero => exact .ok (.refl s)
  | succ fuel ih =>
    have spaces : Leaves s (s.dropWhile isSpaceOrBreak) :=
      .dropWhile (fun _ => isClean_of_isSpaceOrBreak) s
    unfold arraySpace
    refine .ite ?_ (.ok spaces)
    refine ((comment_finds _).mono (fun _ found => found.after spaces)
      (fun _ left => spaces.trans left)).bind fun after left => ?_
    exact (ih after).mono (fun _ found => found.after left) fun _ further => left.trans further

/-- A step that takes no text finds such flaws only. -/
abbrev Finds (x : Except Flaw α) : Prop := Yields (Flaw.IsFoundIn []) (fun _ => True) x

theorem updateAt_finds {intoLists : Bool} {f : Table → Except Flaw Table}
    (change : ∀ t, Finds (f t)) (key : Key) (t : Table) : Finds (updateAt intoLists f key t) := by
  induction key generalizing t with
  | nil => exact change t
  | cons k ks ih =>
    unfold updateAt
    split
    · exact (ih _).bind fun _ _ => .ok trivial
    · exact (ih _).bind fun _ _ => .ok trivial
    · split
      · exact (ih _).bind fun _ _ => .ok trivial
      · exact .error trivial
    · exact .error trivial

theorem addValue_finds {taken : Flaw} (known : taken.IsFoundIn []) (name : String) (value : Tree)
    (t : Table) : Finds (addValue taken name value t) :=
  .ite (.error known) (.ok trivial)

theorem addToArray_finds (name : String) (t : Table) : Finds (addToArray name t) := by
  unfold addToArray
  split
  · exact .ok trivial
  · exact .ok trivial
  · exact .error trivial

theorem Inline.assign_finds (t : Inline) (key : Key) (value : Tree) :
    Finds (t.assign key value) := by
  have twice (name : String) : (Flaw.inlineKeyTwice name).IsFoundIn [] := trivial
  unfold Inline.assign
  refine .ite (.error trivial) ?_
  exact (updateAt_finds (addValue_finds (twice _) _ _) _ _).bind fun _ _ => .ok trivial

/-- A flaw of such a step is reported where the text has been read to. -/
theorem Reads.placed {r : Except Flaw α} {next : α → Except Error (β × List Char)}
    (known : Finds r) (forward : Leaves s rest) (later : ∀ a, Reads s (next a)) :
    Reads s (placed r rest >>= next) := by
  cases r with
  | error flaw => exact .error (.here ((known.fails flaw rfl).mono s.nil_infix) forward)
  | ok a => exact later a

theorem Reads.space {next : List Char → Except Error (β × List Char)} (forward : Leaves s rest)
    (later : ∀ after, Leaves s after → Reads s (next after)) :
    Reads s (skipArraySpace rest >>= next) := by
  have left := arraySpace_finds (rest.length + 1) rest
  exact (left.mono (fun _ found => found.after forward)
    fun _ further => forward.trans further).bind later

mutual

theorem value_reads (fuel : Nat) (s : List Char) : Reads s (value fuel s) := by
  match fuel with
  | 0 =>
    rw [value]
    exact .error (.here trivial (.refl s))
  | fuel + 1 =>
    have quoted {front after : List Char} {x : Except Error (String × List Char)}
        (clean : AreClean front) (reads : Reads after x) :
        Reads (front ++ after) (x.map fun (text, rest) => (Tree.text text, rest)) :=
      .after (.append clean) (.map reads fun _ => rfl)
    unfold value
    split
    · exact quoted (by decide : AreClean ['"', '"', '"']) (multilineString_reads false _)
    · exact quoted (by decide : AreClean ['"']) (basicString_reads _)
    · exact quoted (by decide : AreClean ['\'', '\'', '\'']) (multilineString_reads true _)
    · exact quoted (by decide : AreClean ['\'']) (literalString_reads _)
    · refine Reads.space (.cons (by decide) (.refl _)) fun after left => ?_
      exact (Reads.after left (items_reads fuel after)).bind fun _ further => .ok further
    · rename_i rest
      have inside : Leaves ('{' :: rest) (skipSpace rest) :=
        .cons (by decide) (skipSpace_leaves rest)
      split
      · rename_i closed
        rw [closed] at inside
        exact .ok (inside.tail (by decide))
      · exact (Reads.after inside (inlineEntries_reads fuel _ _)).bind fun _ further => .ok further
    · split
      · rename_i begins
        obtain ⟨after, rfl⟩ := List.isPrefixOf_iff_prefix.mp begins
        exact .ok (.append (by decide))
      · split
        · rename_i begins
          obtain ⟨after, rfl⟩ := List.isPrefixOf_iff_prefix.mp begins
          exact .ok (.append (by decide))
        · exact scalar_reads s

theorem items_reads (fuel : Nat) (s : List Char) : Reads s (items fuel s) := by
  match fuel with
  | 0 =>
    rw [items]
    exact .error (.here trivial (.refl s))
  | fuel + 1 =>
    unfold items
    split
    · exact .ok (.cons (by decide) (.refl _))
    · refine (value_reads fuel _).bind fun ⟨first, rest⟩ left => ?_
      refine Reads.space left fun after further => ?_
      split
      · exact .ok (further.tail (by decide))
      · refine Reads.space (further.tail (by decide)) fun next comma => ?_
        exact (Reads.after comma (items_reads fuel next)).bind fun _ left => .ok left
      · exact .error (.here trivial further)

theorem inlineEntries_reads (fuel : Nat) (t : Inline) (s : List Char) :
    Reads s (inlineEntries fuel t s) := by
  match fuel with
  | 0 =>
    rw [inlineEntries]
    exact .error (.here trivial (.refl s))
  | fuel + 1 =>
    rw [inlineEntries]
    refine (pair_reads fuel s).bind fun ⟨key, found, rest⟩ left => ?_
    refine Reads.placed (t.assign_finds key found) left fun t => ?_
    have spaces := left.trans (skipSpace_leaves rest)
    split
    · rename_i closed
      rw [closed] at spaces
      exact .ok (spaces.tail (by decide))
    · rename_i after comma
      rw [comma] at spaces
      have next := (spaces.tail (by decide)).trans (skipSpace_leaves after)
      exact .after next (inlineEntries_reads fuel t _)
    · exact .error (.here trivial spaces)

theorem pair_reads (fuel : Nat) (s : List Char) :
    Yields (Error.FoundIn s) (fun found => Leaves s found.2.2) (pair fuel s) := by
  match fuel with
  | 0 =>
    rw [pair]
    exact .error (.here trivial (.refl s))
  | fuel + 1 =>
    rw [pair]
    refine (key_reads s).bind fun ⟨key, rest⟩ left => ?_
    dsimp only
    split
    · rename_i after
      have next := (left.tail (by decide)).trans (skipSpace_leaves after)
      exact (Reads.after next (value_reads fuel _)).bind fun _ further => .ok further
    · exact .error (.here trivial left)

end

/-! ### Documents -/

theorem openTable_finds (d : Draft) (key : Key) : Finds (d.openTable key) :=
  .ite (.error trivial) <| (updateAt_finds (fun _ => .ok trivial) key _).bind
    fun _ _ => .ok trivial

theorem openArrayTable_finds (d : Draft) (key : Key) : Finds (d.openArrayTable key) :=
  .ite (.error trivial) <| (updateAt_finds (addToArray_finds _) _ _).bind fun _ _ => .ok trivial

theorem assign_finds (d : Draft) (key : Key) (value : Tree) : Finds (d.assign key value) := by
  have taken : Flaw.overwritten.IsFoundIn [] := trivial
  unfold Draft.assign
  dsimp only
  split
  · exact .error trivial
  · exact .ite (.error trivial) <| (updateAt_finds (addValue_finds taken _ _) _ _).bind
      fun _ _ => .ok trivial

theorem tableHeader_reads (d : Draft) (s : List Char) : Reads s (tableHeader d s) := by
  refine (Reads.after (skipSpace_leaves s) (key_reads _)).bind fun ⟨key, rest⟩ left => ?_
  refine Reads.placed (openTable_finds _ key) left fun d => ?_
  split
  · exact .ok (left.tail (by decide))
  · exact .error (.here trivial left)

theorem arrayTableHeader_reads (d : Draft) (s : List Char) : Reads s (arrayTableHeader d s) := by
  refine (Reads.after (skipSpace_leaves s) (key_reads _)).bind fun ⟨key, rest⟩ left => ?_
  refine Reads.placed (openArrayTable_finds _ key) left fun d => ?_
  split
  · exact .ok ((left.tail (by decide)).tail (by decide))
  · exact .error (.here trivial left)

theorem statement_reads (d : Draft) (s : List Char) : Reads s (statement d s) := by
  unfold statement
  split
  · exact .after (.cons (by decide) (.cons (by decide) (.refl _))) (arrayTableHeader_reads d _)
  · exact .after (.cons (by decide) (.refl _)) (tableHeader_reads d _)
  · exact .ok (.refl _)
  · refine .ite ?_ (.error (.here trivial (.refl _)))
    refine (pair_reads _ _).bind fun ⟨key, found, rest⟩ left => ?_
    exact Reads.placed (assign_finds d key found) left fun d => .ok left
  · exact .ok (.refl _)

theorem statements_finds (fuel : Nat) (d : Draft) (s : List Char) :
    FailsOnly (Error.FoundIn s) (statements fuel d s) := by
  induction fuel generalizing d s with
  | zero => exact .ok d
  | succ fuel ih =>
    have spaces := skipSpace_leaves s
    have next {d : Draft} {rest : List Char} (forward : Leaves s ('\n' :: rest)) :
        FailsOnly (Error.FoundIn s) (statements fuel d rest) :=
      (ih d rest).mono fun _ found => found.after (forward.tail (by decide))
    unfold statements
    split
    · exact .ok d
    · rename_i feed
      exact next (feed ▸ spaces)
    · have stated := Reads.after spaces (statement_reads d (skipSpace s))
      refine stated.fails.bind fun ⟨d, rest⟩ read => ?_
      have left := (stated.gives _ read).trans (skipSpace_leaves rest)
      have ended := (comment_finds (skipSpace rest)).mono (fun _ found => found.after left)
        fun _ further => left.trans further
      refine ended.fails.bind fun after read => ?_
      have further := ended.gives _ read
      split
      · exact .ok d
      · exact next further
      · exact .error (.here trivial further)

/-- An error of a document has nothing before it that text may not hold. -/
theorem parse_eq_error {text : String} {refusal : Refusal} (failed : parse text = .error refusal) :
    ∃ e, refusal = Error.refusal (plainBreaks text.toList) e ∧
      e.FoundIn (plainBreaks text.toList) := by
  unfold parse at failed
  dsimp only at failed
  split at failed
  · cases failed
  · rename_i e found
    cases failed
    exact ⟨e, rfl, statements_finds _ _ _ e found⟩

/-- A number that is too long stands in the document. -/
theorem overlong_of_parse {text : String} {count : Nat}
    (failed : parse text = .error (.overlong count)) :
    digitLimit < count ∧ HoldsDigits (plainBreaks text.toList) count := by
  obtain ⟨e, same, found⟩ := parse_eq_error failed
  have flaw := found.flaw
  unfold Error.refusal at same
  split at same
  · rename_i digits known
    cases same
    rw [known] at flaw
    exact flaw
  · cases same

end SessionPlan.Toml
