import SessionPlan.Proofs.Json.Leaves
import SessionPlan.Proofs.Json.Tree

/-! Trees written as JSON text and read again. A collection is written part by part, each on a line
of its own, and read part by part; what stands between two parts is skipped. -/
namespace SessionPlan.Json
open SessionPlan.Text

/-! ### How a text begins -/

/-- Characters that a value can begin with. -/
def Opens (c : Char) : Prop := c ∈ ['n', 't', 'f', '"', '-', '[', '\x7b'] ∨ isAsciiDigit c = true

/-- No value begins with a space or a closing bracket, and none with a byte order mark. -/
theorem Opens.apart {c : Char} (opens : Opens c) :
    isSpace c = false ∧ c ≠ ']' ∧ c ≠ '\x7d' ∧ c ≠ '\ufeff' := by
  rcases opens with known | digit
  · simp only [List.mem_cons, List.not_mem_nil, or_false] at known
    rcases known with rfl | rfl | rfl | rfl | rfl | rfl | rfl
    all_goals decide
  · refine ⟨?_, ?_, ?_, ?_⟩
    · rw [← Bool.not_eq_true]
      intro space
      simp only [isSpace, Bool.or_eq_true, beq_iff_eq] at space
      rcases space with ((rfl | rfl) | rfl) | rfl
      all_goals exact absurd digit (by decide)
    all_goals
      rintro rfl
      exact absurd digit (by decide)

/-- A text that begins like a value. -/
def Opening (s : List Char) : Prop := ∃ c tail, s = c :: tail ∧ Opens c

theorem Opening.append {s : List Char} (opening : Opening s) (rest : List Char) :
    Opening (s ++ rest) := by
  obtain ⟨c, tail, rfl, opens⟩ := opening
  exact ⟨c, tail ++ rest, rfl, opens⟩

theorem Opening.unskipped {s : List Char} (opening : Opening s) : skipSpace s = s := by
  obtain ⟨c, tail, rfl, opens⟩ := opening
  exact List.dropWhile_cons_of_neg (by simp [opens.apart.1])

theorem Opening.length_pos {s : List Char} (opening : Opening s) : 0 < s.length := by
  obtain ⟨c, tail, rfl, -⟩ := opening
  exact Nat.zero_lt_succ _

theorem opening_stringText (s : String) : Opening (stringText s).toList :=
  ⟨'"', _, stringText_toList s, .inl (by simp)⟩

theorem opening_ofInt (n : Int) : Opening (ofInt n).toList := by
  cases n with
  | ofNat k =>
    obtain ⟨c, digits, whole, digit⟩ := toDigits_cons k
    exact ⟨c, digits, by rw [ofInt, ofNat, String.toList_ofList, whole], .inr digit⟩
  | negSucc k => exact ⟨'-', _, by rw [ofInt, String.toList_ofList], .inl (by simp)⟩

/-! ### Collections -/

theorem newLine_toList (depth : Nat) :
    (newLine depth).toList = '\n' :: List.replicate (2 * depth) ' ' := by
  simp [newLine]

/-- The indent of a line is skipped. -/
theorem skipSpace_newLine (depth : Nat) (s : List Char) :
    skipSpace ((newLine depth).toList ++ s) = skipSpace s := by
  have spaces : ∀ c ∈ (newLine depth).toList, isSpace c = true := by
    rw [newLine_toList]
    intro c member
    rcases List.mem_cons.mp member with rfl | indent
    · decide
    · rw [List.eq_of_mem_replicate indent]
      decide
  exact List.dropWhile_append_of_pos spaces

/-- What follows a part of a collection: all others, each after a comma and on its own line, and the
closing bracket. -/
def afterPart (depth : Nat) (closing : Char) : List String → List Char
  | [] => (newLine depth).toList ++ [closing]
  | part :: rest =>
    ',' :: ((newLine (depth + 1)).toList ++ (part.toList ++ afterPart depth closing rest))

/-- The text of a collection from its first part on. -/
def partsText (depth : Nat) (closing : Char) : List String → List Char
  | [] => []
  | part :: rest => part.toList ++ afterPart depth closing rest

theorem delimited_afterPart (depth : Nat) (closing : Char) (parts : List String)
    (rest : List Char) : Delimited (afterPart depth closing parts ++ rest) := by
  cases parts with
  | nil => exact ⟨'\n', _, by rw [afterPart, newLine_toList]; rfl, .inr rfl⟩
  | cons part others => exact ⟨',', _, rfl, .inl rfl⟩

theorem skipSpace_last (depth : Nat) {closing : Char} (solid : isSpace closing = false)
    (rest : List Char) : skipSpace (afterPart depth closing [] ++ rest) = closing :: rest := by
  rw [afterPart, List.append_assoc, skipSpace_newLine]
  exact List.dropWhile_cons_of_neg (by simp [solid])

theorem skipSpace_next (depth : Nat) (closing : Char) (part : String) (others : List String)
    (rest : List Char) : skipSpace (afterPart depth closing (part :: others) ++ rest) =
      ',' :: ((newLine (depth + 1)).toList ++
        (partsText depth closing (part :: others) ++ rest)) := by
  have comma : isSpace ',' = false := by decide
  rw [afterPart, List.cons_append, List.append_assoc]
  exact List.dropWhile_cons_of_neg (by simp [comma])

theorem Opening.indented {s : List Char} (opening : Opening s) (depth : Nat) (rest : List Char) :
    skipSpace ((newLine depth).toList ++ (s ++ rest)) = s ++ rest := by
  rw [skipSpace_newLine]
  exact (opening.append rest).unskipped

theorem bracketed_toList (depth : Nat) (opening : String) (closing : Char) (first : String)
    (others : List String) :
    (bracketed depth opening (String.singleton closing) (first :: others)).toList =
      opening.toList ++ ((newLine (depth + 1)).toList ++
        partsText depth closing (first :: others)) := by
  have joined (first : String) (others : List String) :
      (join "," ((first :: others).map (newLine (depth + 1) ++ ·))).toList ++
        ((newLine depth).toList ++ [closing]) =
      (newLine (depth + 1)).toList ++ (first.toList ++ afterPart depth closing others) := by
    induction others generalizing first with
    | nil => simp [join, afterPart]
    | cons next rest ih =>
      have later := ih next
      have step : (join "," ((first :: next :: rest).map (newLine (depth + 1) ++ ·))).toList =
          (newLine (depth + 1)).toList ++ (first.toList ++ (',' ::
            (join "," ((next :: rest).map (newLine (depth + 1) ++ ·))).toList)) := by
        simp [join]
      rw [step, List.append_assoc, List.append_assoc, List.cons_append, later]
      rfl
  have whole := joined first others
  simp only [bracketed, List.isEmpty_cons, Bool.false_eq_true, if_false, String.toList_append,
    String.toList_singleton, List.append_assoc, whole, partsText]

/-! ### Whole trees -/

/-- Trees without parts. -/
def IsLeaf : Tree → Prop
  | .null | .flag _ | .int _ | .text _ => True
  | _ => False

theorem render_leaf {t : Tree} (leaf : IsLeaf t) (depth : Nat) : render depth t = scalarText t := by
  cases t with
  | null | flag | int | text => rw [render] <;> simp
  | _ => cases leaf

theorem opening_leaf {t : Tree} (leaf : IsLeaf t) : Opening (scalarText t).toList := by
  cases t with
  | null => exact ⟨'n', _, rfl, .inl (by decide)⟩
  | flag b =>
    cases b with
    | false => exact ⟨'f', _, rfl, .inl (by decide)⟩
    | true => exact ⟨'t', _, rfl, .inl (by decide)⟩
  | int n => exact opening_ofInt n
  | text s => exact opening_stringText s
  | _ => cases leaf

/-- No value without parts begins like a collection. -/
theorem bracketless_leaf {t : Tree} (leaf : IsLeaf t) {c : Char} {tail : List Char}
    (whole : (scalarText t).toList = c :: tail) : c ≠ '[' ∧ c ≠ '\x7b' := by
  have digits {c : Char} (digit : isAsciiDigit c = true) : c ≠ '[' ∧ c ≠ '\x7b' := by
    constructor
    all_goals
      rintro rfl
      exact absurd digit (by decide)
  cases t with
  | null => cases whole; decide
  | flag b => cases b <;> (cases whole; decide)
  | int n =>
    cases n with
    | ofNat k =>
      obtain ⟨d, more, begins, digit⟩ := toDigits_cons k
      rw [scalarText, ofInt, ofNat, String.toList_ofList, begins] at whole
      cases whole
      exact digits digit
    | negSucc k =>
      rw [scalarText, ofInt, String.toList_ofList] at whole
      cases whole
      decide
  | text s =>
    have quoted := (stringText_toList s).symm.trans whole
    cases quoted
    decide
  | _ => cases leaf

/-- No integer of a tree has more digits than the limit allows. -/
def Fits (limit : Option Nat) (ns : List Int) : Prop :=
  ∀ n ∈ ns, allowsDigits limit (Nat.toDigits 10 n.natAbs).length = true

theorem fits_append {limit : Option Nat} {ns others : List Int} :
    Fits limit (ns ++ others) ↔ Fits limit ns ∧ Fits limit others :=
  List.forall_mem_append

section Limit
variable {limit : Option Nat}

theorem scalar_leaf {t : Tree} (leaf : IsLeaf t) (fits : Fits limit t.integers) {rest : List Char}
    (delimited : Delimited rest) : scalar limit ((scalarText t).toList ++ rest) = .ok (t, rest) := by
  cases t with
  | null => exact scalar_word limit .null rest (by simp)
  | flag b => exact scalar_word limit (.flag b) rest (by cases b <;> simp)
  | int n => exact scalar_ofInt delimited (fits n (by simp [Tree.integers]))
  | text s => exact scalar_stringText limit s rest
  | _ => cases leaf

theorem value_leaf {t : Tree} (leaf : IsLeaf t) (fits : Fits limit t.integers) {rest : List Char}
    (delimited : Delimited rest) {fuel : Nat} (enough : 0 < fuel) :
    value limit fuel ((scalarText t).toList ++ rest) = .ok (t, rest) := by
  obtain ⟨fuel, rfl⟩ := Nat.exists_eq_succ_of_ne_zero (Nat.ne_of_gt enough)
  have read := scalar_leaf leaf fits delimited
  obtain ⟨c, tail, whole, -⟩ := opening_leaf leaf
  obtain ⟨list, mapping⟩ := bracketless_leaf leaf whole
  rw [whole, List.cons_append] at read ⊢
  rw [value, read]
  all_goals simp [list, mapping]

theorem opening_render {t : Tree} (json : t.IsJson) (depth : Nat) :
    Opening (render depth t).toList := by
  have bracket (opening closing : Char) (opens : Opens opening) (parts : List String) : Opening
      (bracketed depth (String.singleton opening) (String.singleton closing) parts).toList := by
    cases parts with
    | nil => exact ⟨opening, [closing], by simp [bracketed], opens⟩
    | cons first others =>
      rw [bracketed_toList, String.toList_singleton]
      exact ⟨opening, _, rfl, opens⟩
  by_cases leaf : IsLeaf t
  · rw [render_leaf leaf]
    exact opening_leaf leaf
  · cases t with
    | list items =>
      rw [render]
      exact bracket '[' ']' (.inl (by decide)) _
    | mapping entries =>
      rw [render]
      exact bracket '\x7b' '\x7d' (.inl (by decide)) _
    | null | flag | int | text => exact absurd trivial leaf
    | _ => cases json

theorem render_list (depth : Nat) (x : Tree) (xs : List Tree) :
    (render depth (.list (x :: xs))).toList = '[' :: ((newLine (depth + 1)).toList ++
      partsText depth ']' (renderItems (depth + 1) (x :: xs))) := by
  rw [render, renderItems]
  exact bracketed_toList depth "[" ']' _ _

theorem render_mapping (depth : Nat) (entry : Tree × Tree) (entries : List (Tree × Tree)) :
    (render depth (.mapping (entry :: entries))).toList = '\x7b' :: ((newLine (depth + 1)).toList ++
      partsText depth '\x7d' (renderEntries (depth + 1) (entry :: entries))) := by
  rw [render, renderEntries]
  exact bracketed_toList depth "\x7b" '\x7d' _ _

theorem opening_entries (depth : Nat) (key : String) (x : Tree) (entries : List (Tree × Tree)) :
    Opening (partsText depth '\x7d' (renderEntries (depth + 1) ((.text key, x) :: entries))) := by
  rw [renderEntries, partsText, keyText, String.toList_append, String.toList_append]
  exact (((opening_stringText key).append _).append _).append _

theorem opening_items {x : Tree} (json : x.IsJson) (depth : Nat) (xs : List Tree) :
    Opening (partsText depth ']' (renderItems (depth + 1) (x :: xs))) := by
  rw [renderItems, partsText]
  exact (opening_render json (depth + 1)).append _

/-- The tree is read from its text, and what follows is left. Fuel is counted by the characters that
are read, two for each of them. -/
def Reads (limit : Option Nat) (t : Tree) : Prop :=
  ∀ (depth fuel : Nat) (rest : List Char), Delimited rest →
    2 * (render depth t).toList.length ≤ fuel →
    value limit fuel ((render depth t).toList ++ rest) = .ok (t, rest)

/-- The items of a list are read from the first on, up to the bracket. -/
def ReadsItems (limit : Option Nat) (list : List Tree) : Prop :=
  ∀ (depth fuel : Nat) (rest : List Char),
    2 * (partsText depth ']' (renderItems (depth + 1) list)).length < fuel →
    items limit fuel (partsText depth ']' (renderItems (depth + 1) list) ++ rest) = .ok (list, rest)

/-- The entries of a mapping are read from the first on, up to the brace. -/
def ReadsMembers (limit : Option Nat) (entries : List (Tree × Tree)) : Prop :=
  ∀ (depth fuel : Nat) (rest : List Char),
    2 * (partsText depth '\x7d' (renderEntries (depth + 1) entries)).length < fuel →
    members limit fuel (partsText depth '\x7d' (renderEntries (depth + 1) entries) ++ rest) =
      .ok (entries, rest)

theorem Reads.leaf {t : Tree} (leaf : IsLeaf t) (fits : Fits limit t.integers) :
    Reads limit t := by
  intro depth fuel rest delimited enough
  rw [render_leaf leaf] at enough ⊢
  have positive := (opening_leaf leaf).length_pos
  exact value_leaf leaf fits delimited (by omega)

theorem value_list {s parts : List Char} {fuel : Nat} (indented : skipSpace s = parts)
    (opening : Opening parts) : value limit (fuel + 1) ('[' :: s) = (do
      let (found, rest) ← items limit fuel parts
      return (.list found, rest)) := by
  obtain ⟨c, tail, rfl, opens⟩ := opening
  have other : c ≠ ']' := opens.apart.2.1
  rw [value, indented]
  split
  · rename_i eq
    exact absurd (List.cons.inj eq).1 other
  · rfl

theorem value_mapping {s parts : List Char} {fuel : Nat} (indented : skipSpace s = parts)
    (opening : Opening parts) : value limit (fuel + 1) ('\x7b' :: s) = (do
      let (found, rest) ← members limit fuel parts
      return (.mapping (Tree.ofPairs found), rest)) := by
  obtain ⟨c, tail, rfl, opens⟩ := opening
  have other : c ≠ '\x7d' := opens.apart.2.2.1
  rw [value, indented]
  split
  · rename_i eq
    exact absurd (List.cons.inj eq).1 other
  · rfl

theorem ReadsItems.cons {x : Tree} {xs : List Tree} (json : Tree.AreJson (x :: xs))
    (first : Reads limit x) (later : xs ≠ [] → ReadsItems limit xs) :
    ReadsItems limit (x :: xs) := by
  intro depth fuel rest enough
  obtain ⟨fuel, rfl⟩ := Nat.exists_eq_succ_of_ne_zero (show fuel ≠ 0 by omega)
  simp only [renderItems, partsText, List.length_append] at enough ⊢
  have read := first (depth + 1) fuel (afterPart depth ']' (renderItems (depth + 1) xs) ++ rest)
    (delimited_afterPart depth ']' _ rest) (by omega)
  rw [List.append_assoc, items, read, ok_bind]
  cases xs with
  | nil =>
    have last : skipSpace (afterPart depth ']' [] ++ rest) = ']' :: rest :=
      skipSpace_last depth (by decide) rest
    simp only [renderItems, last]
    rfl
  | cons y ys =>
    have others := later (by simp) depth fuel rest (by
      simp only [renderItems, partsText, afterPart, List.length_cons, List.length_append]
        at enough ⊢
      omega)
    have indent := (opening_items json.2.1 depth ys).indented (depth + 1) rest
    simp only [renderItems] at others indent ⊢
    simp only [skipSpace_next, indent, others, ok_bind]
    rfl

theorem Reads.list {items : List Tree} (json : Tree.AreJson items)
    (parts : items ≠ [] → ReadsItems limit items) : Reads limit (.list items) := by
  intro depth fuel rest delimited enough
  cases items with
  | nil =>
    have text : (render depth (.list [])).toList = ['[', ']'] := by
      simp [render, renderItems, bracketed]
    rw [text, List.length_cons] at enough
    obtain ⟨fuel, rfl⟩ := Nat.exists_eq_succ_of_ne_zero (show fuel ≠ 0 by omega)
    rw [text]
    rfl
  | cons x xs =>
    rw [render_list, List.length_cons, List.length_append] at enough
    obtain ⟨fuel, rfl⟩ := Nat.exists_eq_succ_of_ne_zero (show fuel ≠ 0 by omega)
    have read := parts (by simp) depth fuel rest (by omega)
    have opening := opening_items json.1 depth xs
    rw [render_list, List.cons_append, List.append_assoc,
      value_list (opening.indented (depth + 1) rest) (opening.append rest), read]
    rfl

/-- An entry is its key, a colon and its value. -/
theorem entry_toList (depth : Nat) (key : String) (x : Tree) (after : List Char) :
    (keyText (.text key) ++ ": " ++ render depth x).toList ++ after =
      '"' :: (key.toList.flatMap escapedChar ++
        '"' :: ':' :: ' ' :: ((render depth x).toList ++ after)) := by
  simp [keyText, stringText_toList]

theorem ReadsMembers.cons {key : String} {x : Tree} {entries : List (Tree × Tree)}
    (value : x.IsJson) (json : Tree.HaveJson entries) (first : Reads limit x)
    (later : entries ≠ [] → ReadsMembers limit entries) :
    ReadsMembers limit ((.text key, x) :: entries) := by
  intro depth fuel rest enough
  obtain ⟨fuel, rfl⟩ := Nat.exists_eq_succ_of_ne_zero (show fuel ≠ 0 by omega)
  simp only [renderEntries, partsText, String.toList_append, List.length_append] at enough
  have read := first (depth + 1) fuel
    (afterPart depth '\x7d' (renderEntries (depth + 1) entries) ++ rest)
    (delimited_afterPart depth '\x7d' _ rest) (by omega)
  have opening := (opening_render value (depth + 1)).append
    (afterPart depth '\x7d' (renderEntries (depth + 1) entries) ++ rest)
  have colon (s : List Char) : skipSpace (':' :: ' ' :: s) = ':' :: ' ' :: s := rfl
  have blank (s : List Char) : skipSpace (' ' :: s) = skipSpace s := rfl
  simp only [renderEntries, partsText]
  rw [List.append_assoc, entry_toList, members, stringAfterQuote_stringText, ok_bind]
  simp only [colon, blank, opening.unskipped, read, ok_bind]
  cases entries with
  | nil =>
    have last : skipSpace (afterPart depth '\x7d' [] ++ rest) = '\x7d' :: rest :=
      skipSpace_last depth (by decide) rest
    simp only [renderEntries, last]
    rfl
  | cons entry more =>
    obtain ⟨other, y⟩ := entry
    obtain ⟨⟨next, rfl⟩, -⟩ := json
    have others := later (by simp) depth fuel rest (by
      simp only [renderEntries, partsText, afterPart, List.length_cons, List.length_append]
        at enough ⊢
      omega)
    have indent := (opening_entries depth next y more).indented (depth + 1) rest
    simp only [renderEntries] at others indent ⊢
    simp only [skipSpace_next, indent, others, ok_bind]
    rfl

theorem Reads.mapping {entries : List (Tree × Tree)} (json : Tree.IsJson (.mapping entries))
    (parts : entries ≠ [] → ReadsMembers limit entries) : Reads limit (.mapping entries) := by
  intro depth fuel rest delimited enough
  simp only [Tree.IsJson] at json
  cases entries with
  | nil =>
    have text : (render depth (.mapping [])).toList = ['\x7b', '\x7d'] := by
      simp [render, renderEntries, bracketed]
    rw [text, List.length_cons] at enough
    obtain ⟨fuel, rfl⟩ := Nat.exists_eq_succ_of_ne_zero (show fuel ≠ 0 by omega)
    rw [text]
    rfl
  | cons entry more =>
    have apart := Tree.ofPairs_of_apart json.2
    obtain ⟨key, x⟩ := entry
    obtain ⟨⟨⟨name, rfl⟩, -⟩, -⟩ := json
    rw [render_mapping, List.length_cons, List.length_append] at enough
    obtain ⟨fuel, rfl⟩ := Nat.exists_eq_succ_of_ne_zero (show fuel ≠ 0 by omega)
    have read := parts (by simp) depth fuel rest (by omega)
    have opening := opening_entries depth name x more
    rw [render_mapping, List.cons_append, List.append_assoc,
      value_mapping (opening.indented (depth + 1) rest) (opening.append rest), read, ok_bind]
    simp only [apart]
    rfl

/-! ### Whole documents -/

mutual

theorem reads : ∀ {t : Tree}, t.IsJson → Fits limit t.integers → Reads limit t
  | .null, _, fits | .flag _, _, fits | .int _, _, fits | .text _, _, fits =>
    Reads.leaf trivial fits
  | .list items, json, fits => by
    have parts : Tree.AreJson items := by simpa only [Tree.IsJson] using json
    exact Reads.list parts (readsItems parts (by simpa only [Tree.integers] using fits))
  | .mapping entries, json, fits => by
    have parts : Tree.HaveJson entries := by
      simp only [Tree.IsJson] at json
      exact json.1
    exact Reads.mapping json (readsMembers parts (by simpa only [Tree.integers] using fits))

theorem readsItems : ∀ {items : List Tree}, Tree.AreJson items →
    Fits limit (Tree.itemIntegers items) → items ≠ [] → ReadsItems limit items
  | [], _, _, some_item => absurd rfl some_item
  | _ :: _, json, fits, _ => by
    rw [Tree.itemIntegers, fits_append] at fits
    exact ReadsItems.cons json (reads json.1 fits.1) (readsItems json.2 fits.2)

theorem readsMembers : ∀ {entries : List (Tree × Tree)}, Tree.HaveJson entries →
    Fits limit (Tree.entryIntegers entries) → entries ≠ [] → ReadsMembers limit entries
  | [], _, _, some_entry => absurd rfl some_entry
  | (_, _) :: _, json, fits, _ => by
    obtain ⟨⟨key, rfl⟩, value, rest⟩ := json
    rw [Tree.entryIntegers, fits_append, fits_append] at fits
    exact ReadsMembers.cons value rest (reads value fits.1.2) (readsMembers rest fits.2)

end

end Limit

example : documentText (.mapping [(.text "a\"\n", .list [.int (-10), .null, .list []])]) =
    "\x7b\n  \"a\\\"\\n\": [\n    -10,\n    null,\n    []\n  ]\n\x7d\n" := by decide +kernel

end SessionPlan.Json
