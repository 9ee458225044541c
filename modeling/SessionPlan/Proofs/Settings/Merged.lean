import SessionPlan.Proofs.Variables.Escape
import SessionPlan.Settings.Check

/-! Tables laid over one another. A name that only the lower table has keeps its value, and where
both have a table under it the two are laid over one another in turn. -/
namespace SessionPlan

namespace Tree

mutual

/-- What a settings file can say: no value is null, and the keys of a table are texts, all of them
different. -/
def IsToml : Tree → Prop
  | .flag _ | .int _ | .real _ | .nan _ | .text _ | .date _ | .moment _ | .clock _ => True
  | .list items => AreToml items
  | .mapping entries =>
    HaveToml entries ∧ entries.Pairwise fun first later => same first.1 later.1 = false
  | _ => False

def AreToml : List Tree → Prop
  | [] => True
  | x :: xs => IsToml x ∧ AreToml xs

def HaveToml : List (Tree × Tree) → Prop
  | [] => True
  | (key, value) :: rest => (∃ s, key = .text s) ∧ IsToml value ∧ HaveToml rest

end

@[simp] theorem get?_nil (name : String) : get? [] name = none := rfl

theorem get?_cons (key value : Tree) (rest : List (Tree × Tree)) (name : String) :
    get? ((key, value) :: rest) name = if key.text? = some name then some value
      else get? rest name := by
  by_cases named : key.text? = some name
  · simp [get?, lookupKey, same_of_text, named]
  · simp [get?, lookupKey, same_of_text, named]

/-- Only a text can take the place of a value under a name. -/
theorem get?_insert (key value : Tree) (entries : List (Tree × Tree)) (name : String) :
    get? (insert key value entries) name = if key.text? = some name then some value
      else get? entries name := by
  induction entries with
  | nil => rw [insert, get?_cons]
  | cons entry rest ih =>
    obtain ⟨k, v⟩ := entry
    rw [insert]
    split
    · rename_i known
      by_cases here : k.text? = some name
      · have key_eq : key.text? = some name := by
          cases k with
          | text s => exact (of_decide_eq_true (same_text s key ▸ known)).trans here
          | _ => cases here
        rw [get?_cons, get?_cons, if_pos here, if_pos key_eq]
      · have key_ne : ¬key.text? = some name := by
          intro named
          cases key with
          | text s => exact here ((of_decide_eq_true (same_of_text k s ▸ known)).trans named)
          | _ => cases named
        rw [get?_cons, get?_cons, if_neg here, if_neg here, if_neg key_ne]
    · rename_i other
      rw [get?_cons, get?_cons, ih]
      by_cases here : k.text? = some name
      · have key_ne : ¬key.text? = some name := by
          intro named
          apply other
          cases key with
          | text s => rw [same_of_text, here, decide_eq_true_eq]; exact named.symm
          | _ => cases named
        rw [if_pos here, if_neg key_ne, if_pos here]
      · rw [if_neg here, if_neg here]

/-- A name stands at one place only, so it is not found behind it. -/
theorem get?_eq_none_of_apart {s : String} {rest : List (Tree × Tree)}
    (apart : ∀ entry ∈ rest, same (.text s) entry.1 = false) : get? rest s = none := by
  induction rest with
  | nil => rfl
  | cons entry more ih =>
    obtain ⟨k, v⟩ := entry
    have first : same (.text s) k = false := apart (k, v) List.mem_cons_self
    rw [same_text, decide_eq_false_iff_not] at first
    rw [get?_cons, if_neg first, ih fun other member => apart other (List.mem_cons_of_mem _ member)]

theorem HaveToml.get? {entries : List (Tree × Tree)} (toml : HaveToml entries) {name : String}
    {value : Tree} (found : get? entries name = some value) : value.IsToml := by
  induction entries with
  | nil => cases found
  | cons entry rest ih =>
    obtain ⟨k, v⟩ := entry
    obtain ⟨-, first, later⟩ := toml
    rw [get?_cons] at found
    split at found
    · cases found
      exact first
    · exact ih later found

end Tree

namespace Settings
open SessionPlan.Tree (get?)

theorem isTable_iff {value : Tree} : isTable value = true ↔ ∃ inner, value = .mapping inner := by
  cases value <;> simp [isTable]

/-- A value that is laid over something else than a table stands alone. -/
theorem overlaid_of_leaf {old : Option Tree} (leaf : ∀ base, old ≠ some (.mapping base))
    (value : Tree) : overlaid old value = value := by
  cases value with
  | mapping entries =>
    rw [overlaid]
    exact leaf
  | _ => rfl

/-- What the upper table says of a name goes over what the lower one says. -/
theorem get?_overlay {entries : List (Tree × Tree)}
    (apart : entries.Pairwise fun first later => Tree.same first.1 later.1 = false)
    (base : List (Tree × Tree)) (name : String) :
    get? (overlay base entries) name =
      match get? entries name with
      | none => get? base name
      | some value => some (overlaid (get? base name) value) := by
  induction entries generalizing base with
  | nil => rw [overlay, Tree.get?_nil]
  | cons entry rest ih =>
    obtain ⟨key, value⟩ := entry
    obtain ⟨fresh, apart⟩ := List.pairwise_cons.mp apart
    rw [overlay, ih apart, Tree.get?_cons, Tree.get?_insert]
    by_cases here : key.text? = some name
    · obtain rfl : key = .text name := by
        cases key <;> cases here
        rfl
      rw [Tree.get?_eq_none_of_apart fresh, if_pos here, if_pos here]
      rfl
    · rw [if_neg here, if_neg here]

/-- The entry `key` of the table under `name`, where there is one. -/
def set? (entries : List (Tree × Tree)) (name key : String) : Option Tree :=
  match get? entries name with
  | some (.mapping inner) => get? inner key
  | _ => none

end Settings
end SessionPlan
