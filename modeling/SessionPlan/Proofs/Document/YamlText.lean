import SessionPlan.Proofs.Document.Blocks
import SessionPlan.Proofs.Document.Serialized
import SessionPlan.Proofs.Yaml.Exact

/-! The text of a project as YAML. It is read back as the project's tree, but for one character: a
next line (U+0085) is lost from a text that single quotes may hold, where it is written as it is and
read as the end of a line. -/
namespace SessionPlan.Document
open SessionPlan.Text

/-- What a well-formed project's text is read back as, if it has one. -/
theorem parse_dump_wellFormed {home : String} {p : Project} (formed : p.WellFormed home) :
    ∃ tree, outline home p = .ok tree ∧
      (tree.isWritable = true → ∃ text, dump home (.text "yaml") p = .ok text ∧
        parse .yaml text = .ok (Yaml.rereadTree tree)) ∧
      (tree.isWritable = false → dump home (.text "yaml") p = .error (.fault .unwritable)) := by
  obtain ⟨tree, laidOut, -⟩ := outline_of_sizesFit home formed.sizesFit
  have panes : ∀ w ∈ p.windows, w.panes ≠ [] := fun w member => by
    obtain ⟨i, found⟩ := List.mem_iff_getElem?.mp member
    exact (formed.windows i w found).panes_ne_nil
  obtain ⟨entries, rfl, block⟩ := outline_isBlock formed.windows_ne_nil panes laidOut
  have written := dump_of_outline laidOut .yaml
  refine ⟨_, laidOut, fun writable => ?_, fun long => by rwa [long] at written⟩
  refine ⟨Yaml.documentText (.mapping entries), by rwa [writable] at written, ?_⟩
  rw [parse, Yaml.parse_documentText block writable (by decide)]
  rfl

/-- Written as YAML and read again, a project's tree is what it was, up to the texts that `reread`
changes; nothing is changed just if no text that single quotes may hold has a next line in it. A
tree with an integer of too many digits is not written. -/
theorem parse_dump_yaml (home : String) {values : Variables} {wishes : Wishes} {document : Tree}
    {p : Project} (built : (normalize home values wishes document).result = .ok p) :
    ∃ tree, outline home p = .ok tree ∧
      (tree.isWritable = true → ∃ text, dump home (.text "yaml") p = .ok text ∧
        parse .yaml text = .ok (Yaml.rereadTree tree) ∧
        (parse .yaml text = .ok tree ↔ ∀ s ∈ Yaml.valueTexts tree, '\u0085' ∈ s.toList →
          Yaml.allowsSingleQuotes s.toList = false)) ∧
      (tree.isWritable = false → dump home (.text "yaml") p = .error (.fault .unwritable)) := by
  obtain ⟨tree, laidOut, short, long⟩ := parse_dump_wellFormed (normalize_wellFormed built)
  refine ⟨tree, laidOut, fun writable => ?_, long⟩
  obtain ⟨text, dumped, read⟩ := short writable
  refine ⟨text, dumped, read, ?_⟩
  rw [read, Except.ok.injEq, Yaml.rereadTree_eq_iff]
  exact forall₂_congr fun s _ => Yaml.reread_eq_iff s

/-- A document with a name that reads as a flag, a next line beside a space, which takes double
quotes, a size, and a command in single quotes that is folded. -/
def foldedDocument : Tree := .mapping [
  (.text "name", .text "true"), (.text "root", .text "~/a b"),
  (.text "windows", .list [.text "a\u0085 b", .mapping [(.text "panes", .list [.null, .mapping [
    (.text "split_size", .int 12), (.text "clear", .flag true), (.text "commands", .list [
      .text "echo: 'one two three four five six seven eight nine ten eleven twelve thirteen $$y'"
    ])]])]])]

def foldedProject : Project where
  sessionName := some "true"
  workingDir := some "/home/ann/a b"
  windows := [{ panes := [{ commands := ["a\u0085 b"] }] },
    { index := 2, panes := [{}, { index := 2, splitSize := some "12", clear := true, commands := [
      "echo: 'one two three four five six seven eight nine ten eleven twelve thirteen $y'"] }] }]

theorem parse_dump_yaml_folded :
    (normalize "/home/ann" ⟨[]⟩ {} foldedDocument).result = .ok foldedProject ∧
      ∃ tree, outline "/home/ann" foldedProject = .ok tree ∧
        (tree.isWritable = true → ∃ text, dump "/home/ann" (.text "yaml") foldedProject = .ok text ∧
          parse .yaml text = .ok (Yaml.rereadTree tree) ∧
          (parse .yaml text = .ok tree ↔ ∀ s ∈ Yaml.valueTexts tree, '\u0085' ∈ s.toList →
            Yaml.allowsSingleQuotes s.toList = false)) ∧
        (tree.isWritable = false →
          dump "/home/ann" (.text "yaml") foldedProject = .error (.fault .unwritable)) := by
  have built : (normalize "/home/ann" ⟨[]⟩ {} foldedDocument).result = .ok foldedProject :=
    eq_ok_of_toOption (by decide +kernel)
  exact ⟨built, parse_dump_yaml "/home/ann" built⟩

def nextLineDocument : Tree := .mapping [
  (.text "name", .text "dev"), (.text "windows", .list [.text "a\u0085b"])]

def nextLineProject : Project where
  sessionName := some "dev"
  windows := [{ panes := [{ commands := ["a\u0085b"] }] }]

/-- The tree `nextLineProject` is laid out as. -/
def nextLineTree : Tree := .mapping [
  (.text "session_name", .text "dev"),
  (.text "windows", .list [.mapping [(.text "panes", .list [.text "a\u0085b"])]])]

/-- A command with a next line comes back with a space in its place. -/
theorem parse_dump_yaml_nextLine :
    (normalize "/home/ann" ⟨[]⟩ {} nextLineDocument).result = .ok nextLineProject ∧
      ∃ text, outline "/home/ann" nextLineProject = .ok nextLineTree ∧
        dump "/home/ann" (.text "yaml") nextLineProject = .ok text ∧
        parse .yaml text ≠ .ok nextLineTree := by
  have built : (normalize "/home/ann" ⟨[]⟩ {} nextLineDocument).result = .ok nextLineProject :=
    eq_ok_of_toOption (by decide +kernel)
  obtain ⟨tree, laidOut, short, -⟩ := parse_dump_wellFormed (normalize_wellFormed built)
  have same : outline "/home/ann" nextLineProject = .ok nextLineTree := rfl
  obtain rfl : tree = nextLineTree := Except.ok.inj (laidOut.symm.trans same)
  obtain ⟨text, dumped, read⟩ := short (by decide +kernel)
  refine ⟨built, text, same, dumped, fun kept => ?_⟩
  rw [read, Except.ok.injEq, Yaml.rereadTree_eq_iff] at kept
  have unchanged := (Yaml.reread_eq_iff "a\u0085b").mp (kept _ (by decide +kernel)) (by decide)
  exact absurd unchanged (by decide +kernel)

end SessionPlan.Document
