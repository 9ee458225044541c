import SessionPlan.Proofs.Outcome
import SessionPlan.Variables

/-! Doubling the dollar signs of a document makes it safe from expansion: whatever the variables
are, expanding it gives the document back. -/
namespace SessionPlan

/-- The escaper works by characters and the expander by segments, but each doubled sign is one
segment, so the two stay in step. -/
theorem scan_escaped (s : List Char) (v : Variables) :
    ((Segment.scan 0 (s.flatMap fun c => if c = '$' then ['$', '$'] else [c])).map
      (Segment.value v)).flatMap String.toList = s := by
  induction s with
  | nil => rfl
  | cons c rest ih =>
    by_cases dollar : c = '$'
    · subst dollar
      simp only [List.flatMap_cons, if_true, List.cons_append, List.nil_append, Segment.scan,
        Segment.afterDollar?, List.map_cons, ih]
      simp [Segment.value]
    · simp only [List.flatMap_cons, if_neg dollar, List.cons_append, List.nil_append, Segment.scan,
        List.map_cons, ih, Segment.value]
      simp

theorem expand_escapeText (v : Variables) (s : String) : expand v (Tree.escapeText s) = s := by
  apply String.toList_inj.mp
  rw [expand, String.toList_join, Segment.ofText, Tree.escapeText, String.toList_ofList,
    scan_escaped]

namespace Tree

mutual

/-- What a document can hold, as far as expansion minds: no tuple, which would become a list, and
no endless collection; and the keys of every mapping are all different. -/
def IsDocument : Tree → Prop
  | .tuple _ | .cycle => False
  | .list items => AreDocuments items
  | .mapping entries =>
    HaveDocuments entries ∧ entries.Pairwise fun first later => same first.1 later.1 = false
  | _ => True

def AreDocuments : List Tree → Prop
  | [] => True
  | x :: xs => IsDocument x ∧ AreDocuments xs

def HaveDocuments : List (Tree × Tree) → Prop
  | [] => True
  | (key, value) :: rest =>
    (IsDocument key ∧ key.isKey = true) ∧ IsDocument value ∧ HaveDocuments rest

end

theorem lookupKey_eq_none {key : Tree} {entries : List (Tree × Tree)}
    (h : ∀ e ∈ entries, same e.1 key = false) : lookupKey key entries = none :=
  List.find?_eq_none.mpr fun e member => by simp [h e member]

mutual

/-- Expansion undoes escaping, and no two keys collide on the way. -/
theorem expand_escape (v : Variables) : ∀ t : Tree, IsDocument t → expand v (escape t) = .ok t
  | .text s, _ => by rw [escape, expand, expand_escapeText]
  | .list items, h => by
    rw [escape, expand, expandItems_escapeItems v items (by simpa [IsDocument] using h)]; rfl
  | .mapping entries, h => by
    simp only [IsDocument] at h
    rw [escape, expand, expandEntries_escapeEntries v entries [] h.1 h.2 (by simp)]; rfl
  | .null, _ | .flag _, _ | .int _, _ | .real _, _ | .nan _, _ | .set _, _ | .bytes _, _
  | .date _, _ | .moment _, _ | .clock _, _ => rfl

theorem expandItems_escapeItems (v : Variables) :
    ∀ items, AreDocuments items → expandItems v (escapeItems items) = .ok items
  | [], _ => rfl
  | x :: xs, h => by
    simp only [AreDocuments] at h
    rw [escapeItems, expandItems, expand_escape v x h.1, ok_bind,
      expandItems_escapeItems v xs h.2]
    rfl

theorem expandEntries_escapeEntries (v : Variables) :
    ∀ entries seen, HaveDocuments entries →
      (entries.Pairwise fun first later => same first.1 later.1 = false) →
      (∀ e ∈ entries, ∀ s ∈ seen, same s.1 e.1 = false) →
      expandEntries v seen (escapeEntries entries) = .ok entries
  | [], _, _, _, _ => rfl
  | (key, value) :: rest, seen, h, distinct, fresh => by
    simp only [HaveDocuments] at h
    obtain ⟨apart, distinct⟩ := List.pairwise_cons.mp distinct
    have unseen : lookupKey key seen = none := lookupKey_eq_none (fresh _ List.mem_cons_self)
    have later := expandEntries_escapeEntries v rest ((key, escape key) :: seen) h.2.2 distinct
      (by
        intro e member s known
        rcases List.mem_cons.mp known with rfl | known
        · exact apart e member
        · exact fresh e (List.mem_cons_of_mem _ member) s known)
    rw [escapeEntries, expandEntries, expand_escape v key h.1.1, ok_bind]
    simp only [h.1.2, Bool.not_true, Bool.false_eq_true, if_false, unseen,
      expand_escape v value h.2.1, later]
    rfl

end

/-! ### Keys stay apart -/

theorem escapeText_injective {s t : String} (same : escapeText s = escapeText t) : s = t := by
  have back := congrArg (SessionPlan.expand ⟨[]⟩) same
  rwa [expand_escapeText, expand_escapeText] at back

/-- A text is the same as equal texts only. -/
theorem same_text (s : String) (t : Tree) : same (.text s) t = decide (t.text? = some s) := by
  cases t with
  | text u =>
    by_cases equal : s = u
    · simp [same, sameLeaf, text?, equal]
    · simp [same, sameLeaf, text?, equal, Ne.symm equal]
  | _ => simp [same, sameLeaf, integer?, text?]

theorem same_of_text (t : Tree) (s : String) : same t (.text s) = decide (t.text? = some s) := by
  cases t with
  | text u => simp [same, sameLeaf, text?, Bool.beq_eq_decide_eq]
  | _ => simp [same, sameLeaf, integer?, text?]

/-- A tree without parts, other than a text. -/
def IsOther : Tree → Prop
  | .text _ | .list _ | .tuple _ | .mapping _ | .cycle => False
  | _ => True

/-- A key of a document has no parts: it is a text, or nothing that has to do with texts. -/
theorem key_cases {key : Tree} (plain : key.isKey = true) (document : key.IsDocument) :
    (∃ s, key = .text s) ∨ key.IsOther := by
  cases key with
  | text s => exact .inl ⟨s, rfl⟩
  | list items => cases plain
  | mapping entries => cases plain
  | tuple items => exact document.elim
  | cycle => exact document.elim
  | _ => exact .inr trivial

theorem IsOther.escape_eq {t : Tree} (bare : t.IsOther) : t.escape = t ∧ t.text? = none := by
  cases t with
  | text s => exact bare.elim
  | list items => exact bare.elim
  | tuple items => exact bare.elim
  | mapping entries => exact bare.elim
  | cycle => exact bare.elim
  | _ => exact ⟨rfl, rfl⟩

/-- Keys are the same when escaped just if they were before. -/
theorem same_escape {a b : Tree} (aKey : a.isKey = true ∧ a.IsDocument)
    (bKey : b.isKey = true ∧ b.IsDocument) : same a.escape b.escape = same a b := by
  rcases key_cases aKey.1 aKey.2 with ⟨s, rfl⟩ | aBare
  · rcases key_cases bKey.1 bKey.2 with ⟨t, rfl⟩ | bBare
    · simp only [escape, same_text, text?, Option.some.injEq]
      exact decide_eq_decide.mpr ⟨escapeText_injective, congrArg escapeText⟩
    · obtain ⟨bEscape, noText⟩ := bBare.escape_eq
      rw [bEscape, escape, same_text, same_text, noText]
      rfl
  · obtain ⟨aEscape, noText⟩ := aBare.escape_eq
    rcases key_cases bKey.1 bKey.2 with ⟨t, rfl⟩ | bBare
    · rw [aEscape, escape, same_of_text, same_of_text, noText]
      rfl
    · rw [aEscape, bBare.escape_eq.1]

theorem escapeEntries_eq_map (entries : List (Tree × Tree)) :
    escapeEntries entries = entries.map fun entry => (entry.1.escape, entry.2.escape) := by
  induction entries with
  | nil => rfl
  | cons entry rest ih => rw [escapeEntries, ih, List.map_cons]

theorem HaveDocuments.key {entries : List (Tree × Tree)} (documents : HaveDocuments entries) :
    ∀ entry ∈ entries, entry.1.isKey = true ∧ entry.1.IsDocument := by
  induction entries with
  | nil => simp
  | cons entry rest ih =>
    obtain ⟨⟨document, plain⟩, -, others⟩ := documents
    exact List.forall_mem_cons.mpr ⟨⟨plain, document⟩, ih others⟩

theorem isKey_escape {key : Tree} (plain : key.isKey = true) (document : key.IsDocument) :
    key.escape.isKey = true := by
  rcases key_cases plain document with ⟨s, rfl⟩ | bare
  · rfl
  · rwa [bare.escape_eq.1]

mutual

/-- What is escaped is a document again: no two entries of a mapping come to share a key. -/
theorem isDocument_escape : ∀ t : Tree, IsDocument t → IsDocument (escape t)
  | .list items, h => by
    simp only [IsDocument, escape] at h ⊢
    exact areDocuments_escapeItems items h
  | .mapping entries, h => by
    simp only [IsDocument, escape] at h ⊢
    refine ⟨haveDocuments_escapeEntries entries h.1, ?_⟩
    rw [escapeEntries_eq_map, List.pairwise_map]
    refine h.2.imp_of_mem fun first later apart => ?_
    rwa [same_escape (h.1.key _ first) (h.1.key _ later)]
  | .text _, _ | .null, _ | .flag _, _ | .int _, _ | .real _, _ | .nan _, _ | .set _, _
  | .bytes _, _ | .date _, _ | .moment _, _ | .clock _, _ => trivial

theorem areDocuments_escapeItems : ∀ items, AreDocuments items → AreDocuments (escapeItems items)
  | [], _ => trivial
  | x :: xs, h => ⟨isDocument_escape x h.1, areDocuments_escapeItems xs h.2⟩

theorem haveDocuments_escapeEntries :
    ∀ entries, HaveDocuments entries → HaveDocuments (escapeEntries entries)
  | [], _ => trivial
  | (key, value) :: rest, h =>
    ⟨⟨isDocument_escape key h.1.1, isKey_escape h.1.2 h.1.1⟩, isDocument_escape value h.2.1,
      haveDocuments_escapeEntries rest h.2.2⟩

end

/-- Whatever the variables are, a document comes back when its escaped form is expanded: its keys,
its values and their order. No entry is lost on the way there or back, since keys that were apart
stay apart. -/
theorem escape_then_expand (v : Variables) {t : Tree} (document : t.IsDocument) :
    t.escape.IsDocument ∧ t.escape.expand v = .ok t ∧
      ∀ s, SessionPlan.expand v (escapeText s) = s :=
  ⟨isDocument_escape t document, expand_escape v t document, expand_escapeText v⟩

/-- Signs in keys and values, single and in rows, next to marks that a reference could hold. -/
def signedDocument : Tree := .mapping [
  (.text "$A", .list [.text "$$\x7bA:-$B\x7d$", .int 1, .null]),
  (.text "$$A", .mapping [(.null, .flag true), (.int 1, .text "a$1$")])]

theorem isDocument_signedDocument : signedDocument.IsDocument := by
  simp [signedDocument, IsDocument, AreDocuments, HaveDocuments, isKey, same, sameLeaf, integer?]

theorem escape_then_expand_signed :
    signedDocument.IsDocument ∧
    signedDocument.escape.IsDocument ∧
      signedDocument.escape.expand ⟨[("A", "$B"), ("1", "")]⟩ = .ok signedDocument ∧
      ∀ s, SessionPlan.expand ⟨[("A", "$B"), ("1", "")]⟩ (escapeText s) = s :=
  ⟨isDocument_signedDocument, escape_then_expand _ isDocument_signedDocument⟩

end Tree
end SessionPlan
