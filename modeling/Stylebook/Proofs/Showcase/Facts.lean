import Mathlib.Data.List.Induction
import Stylebook.Showcase.Build

/-! What a comment says, kind by kind. The tags are read in one pass, each of them changing what was read before; but
    the result can be read off kind by kind, as the last tag of a name, the first of some names or all of them
    (`describe_eq`). Both sides take in one more tag at the end in the same way. -/

namespace Stylebook
namespace Showcase

open Doc (Tag)

/-! ### Tags of a name -/

/-- The last content of a tag that counts once. -/
def last? (tags : List Tag) (name : String) : Option Text := (contents tags [name]).getLast?

/-- The selector and the description that the last tag of a name gives. -/
def lastSelector? (tags : List Tag) (name : String) : Option (Text × Option Text) :=
  (last? tags name).bind selectorAndDescription?

section
variable (tags : List Tag) (t : Tag)

theorem contents_concat (names : List String) : contents (tags ++ [t]) names =
    contents tags names ++ if t.name ∈ names.map String.text then [t.content] else [] := by
  simp only [contents, List.filter_append, List.map_append]
  by_cases hname : t.name ∈ names.map String.text
  · rw [if_pos hname, List.filter_cons_of_pos (by simpa using hname), List.filter_nil, List.map_singleton]
  · rw [if_neg hname, List.filter_cons_of_neg (by simpa using hname), List.filter_nil, List.map_nil]

theorem last?_concat (name : String) :
    last? (tags ++ [t]) name = if t.name = name.text then some t.content else last? tags name := by
  simp only [last?, contents_concat, List.map_singleton, List.mem_singleton]
  split
  · rw [List.getLast?_concat]
  · rw [List.append_nil]

theorem lastSelector?_concat (name : String) : lastSelector? (tags ++ [t]) name =
    if t.name = name.text then selectorAndDescription? t.content else lastSelector? tags name := by
  rw [lastSelector?, last?_concat]
  split <;> rfl

end

/-! ### One pass -/

/-- What the tags say, each fact read from the tags of its kind. -/
def Reading.byKind (number : Nat) (tags : List Tag) : Reading where
  item :=
    { Item.blank number with
      section_ := (lastSelector? tags "section").map (·.1)
      title := last? tags "$title"
      description := last? tags "$description"
      base := (lastSelector? tags "base").map (·.1)
      baseDescription := (lastSelector? tags "base").bind (·.2)
      example_ := (contents tags ["example", "markup", "presentation", "preview"]).head?
      version := last? tags "version"
      author := contents tags ["author"]
      since := last? tags "since"
      isDeprecated := (last? tags "deprecated").isSome
      deprecatedInfo := last? tags "deprecated"
      see := contents tags ["see"]
      todo := contents tags ["todo"]
      fixme := contents tags ["fixme"] }
  sectionLabel := (lastSelector? tags "section").bind (·.2)
  presented := (contents tags ["presentation", "preview"]).head?

theorem Reading.byKind_concat (number : Nat) (tags : List Tag) (t : Tag) :
    byKind number (tags ++ [t]) = (byKind number tags).take t := by
  obtain ⟨name, content⟩ := t
  by_cases h : name ∈ ["$title".text, "$description".text, "section".text, "base".text, "example".text, "markup".text,
      "presentation".text, "preview".text, "version".text, "since".text, "deprecated".text, "author".text, "see".text,
      "todo".text, "fixme".text]
  · -- a tag that is read changes the facts of its own kind on both sides, and no others
    simp only [List.mem_cons, List.not_mem_nil, or_false] at h
    rcases h with rfl | rfl | rfl | rfl | rfl | rfl | rfl | rfl | rfl | rfl | rfl | rfl | rfl | rfl | rfl
    all_goals simp [byKind, take, contents_concat, last?_concat, lastSelector?_concat, String.text_inj,
      exampleNames, presentationNames]
  · simp only [List.mem_cons, List.not_mem_nil, or_false, not_or] at h
    simp [byKind, take, contents_concat, last?_concat, lastSelector?_concat, exampleNames, h]

/-- Reading the tags one after the other gives what they say kind by kind. -/
theorem Reading.ofTags_eq (number : Nat) (tags : List Tag) : ofTags number tags = byKind number tags := by
  induction tags using List.reverseRecOn with
  | nil => rfl
  | append_singleton tags t ih =>
    calc ofTags number (tags ++ [t]) = (ofTags number tags).take t := List.foldl_append
      _ = byKind number (tags ++ [t]) := by rw [ih, byKind_concat]

/-- An item as its tags describe it, kind by kind. -/
theorem describe_eq (number : Nat) (tags : List Tag) : describe number tags =
    { (Reading.byKind number tags).item with
      title := orElseIfEmpty (last? tags "$title")
        (orElseIfEmpty ((lastSelector? tags "section").bind (·.2)) ((lastSelector? tags "base").bind (·.2)))
      presentation := (contents tags ["presentation", "preview"]).head?.or
        (contents tags ["example", "markup", "presentation", "preview"]).head?
      states := (contents tags ["state", "pseudo"]).map stateOf } := by
  rw [describe, Reading.ofTags_eq]
  rfl

@[simp] theorem describe_id (number : Nat) (tags : List Tag) : (describe number tags).id = number := by
  rw [describe_eq]
  rfl

/-- The number of a comment makes no difference but to the number of its item. -/
theorem describe_number (number number' : Nat) (tags : List Tag) :
    describe number' tags = { describe number tags with id := number' } := by
  rw [describe_eq, describe_eq]
  rfl

end Showcase
end Stylebook
