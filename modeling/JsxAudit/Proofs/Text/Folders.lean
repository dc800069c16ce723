import JsxAudit.Proofs.Text.Parts
import JsxAudit.Proofs.Text.Tokens

/-!
The component `**/` of a pattern.

Behind what ends in a slash it stands for one folder or more (`matchesLeading_folders`), and only at
the beginning of a pattern for no folder as well (`matchesLeading_anyFolders`). A path that matches
is then cut in three: what the part before the component matches, folders, and what the part behind
it matches (`Parted`). What groups stand for is a pattern without groups, to which all this applies
(`matchesAny_folders`).
-/

namespace JsxAudit.Text.Glob

open Braces

variable {front back path : List Char}

/-! ### Patterns without groups -/

/-- The characters are folders, one or more, as they stand in a path. -/
def IsFolders (cs : List Char) : Prop :=
  ∃ names, cs = names ++ ['/']

/-- The stars and the slash of the component. -/
def anyFolders : List Char :=
  ['*', '*', '/']

theorem matchesPlain_anyFolders : matchesPlain anyFolders path = true ↔ IsFolders path := by
  have slash (cs : List Char) : matchesTokens [.literal '/'] cs = true ↔ cs = ['/'] := by
    rw [matchesTokens_cons _ _ Token.noConfusion]
    constructor
    · rintro ⟨c, rest, rfl, here, none⟩
      rw [← of_decide_eq_true here, List.isEmpty_iff.mp none]
    · rintro rfl
      exact ⟨'/', [], rfl, rfl, rfl⟩
  have tokens : tokensFrom 0 anyFolders = [.anything, .anything, .literal '/'] := rfl
  rw [matchesPlain, tokens, matchesTokens, anySuffix_iff]
  simp only [matchesTokens, anySuffix_iff, slash]
  constructor
  · rintro ⟨skipped, _, rfl, names, _, rfl, rfl⟩
    exact ⟨skipped ++ names, (List.append_assoc ..).symm⟩
  · rintro ⟨names, rfl⟩
    exact ⟨[], names ++ ['/'], rfl, names, ['/'], rfl, rfl⟩

theorem matchesPlain_folders (h : setsEnd (anyFolders ++ back) 0 front = true) :
    matchesPlain (front ++ (anyFolders ++ back)) path = true ↔
      ∃ first folders last, path = first ++ (folders ++ last) ∧ matchesPlain front first = true ∧
        IsFolders folders ∧ matchesPlain back last = true := by
  have component : setsEnd back 0 anyFolders = true := rfl
  simp only [matchesPlain_append h, matchesPlain_append component, matchesPlain_anyFolders]
  constructor
  · rintro ⟨first, _, rfl, here, folders, last, rfl, rest⟩
    exact ⟨first, folders, last, rfl, here, rest⟩
  · rintro ⟨first, folders, last, rfl, here, rest⟩
    exact ⟨first, _, rfl, here, folders, last, rfl, rest⟩

theorem matchesLeading_iff {pattern : List Char} :
    matchesLeading path pattern = true ↔ matchesPlain pattern path = true ∨
      ∃ rest, pattern = anyFolders ++ rest ∧ matchesPlain rest path = true := by
  unfold matchesLeading
  rw [Bool.or_eq_true]
  refine or_congr_right ?_
  split
  · rename_i rest
    constructor
    · exact fun h => ⟨rest, rfl, h⟩
    · rintro ⟨rest', same, h⟩
      have same : anyFolders ++ rest = anyFolders ++ rest' := same
      rwa [List.append_cancel_left same]
  · rename_i other
    constructor
    · exact fun h => Bool.noConfusion h
    · rintro ⟨rest, same, -⟩
      exact absurd same (other rest)

/-- What ends in a slash begins with the component if it does so together with what follows. -/
theorem eq_anyFolders_append {above behind rest : List Char}
    (h : above ++ ['/'] ++ behind = anyFolders ++ rest) :
    ∃ front, above ++ ['/'] = anyFolders ++ front ∧ rest = front ++ behind := by
  rcases List.append_eq_append_iff.mp h with ⟨more, short, behind⟩ | ⟨front, long, rest⟩
  · -- Among the three characters of the component only the last is a slash.
    rcases above with _ | ⟨a, _ | ⟨b, _ | ⟨c, above⟩⟩⟩ <;> simp_all [anyFolders]
  · exact ⟨front, long, rest⟩

theorem setsEnd_anyFolders (tail front : List Char) :
    setsEnd tail 0 (anyFolders ++ front) = setsEnd tail 0 front := rfl

theorem matchesLeading_nil : matchesLeading path [] = true ↔ path = [] := by
  have plain : matchesLeading path [] = (path.isEmpty || false) := rfl
  rw [plain, Bool.or_false, List.isEmpty_iff]

/-- At its beginning, the component stands for no folder as well. -/
theorem matchesLeading_anyFolders :
    matchesLeading path (anyFolders ++ back) = true ↔
      ∃ folders last, path = folders ++ last ∧ (IsFolders folders ∨ folders = []) ∧
        matchesPlain back last = true := by
  have component : setsEnd back 0 anyFolders = true := rfl
  rw [matchesLeading_iff, matchesPlain_append component]
  simp only [matchesPlain_anyFolders]
  constructor
  · rintro (⟨folders, last, rfl, some, rest⟩ | ⟨rest, same, whole⟩)
    · exact ⟨folders, last, rfl, .inl some, rest⟩
    · rw [← List.append_cancel_left same] at whole
      exact ⟨[], path, rfl, .inr rfl, whole⟩
  · rintro ⟨folders, last, rfl, some | rfl, rest⟩
    · exact .inl ⟨folders, last, rfl, some, rest⟩
    · exact .inr ⟨back, rfl, rest⟩

/-- Behind what ends in a slash, the component stands for one folder or more. -/
theorem matchesLeading_folders (ends : IsFolders front)
    (h : setsEnd (anyFolders ++ back) 0 front = true) :
    matchesLeading path (front ++ (anyFolders ++ back)) = true ↔
      ∃ first folders last, path = first ++ (folders ++ last) ∧
        matchesLeading first front = true ∧ IsFolders folders ∧
        matchesPlain back last = true := by
  obtain ⟨above, rfl⟩ := ends
  rw [matchesLeading_iff, matchesPlain_folders h]
  constructor
  · rintro (⟨first, folders, last, rfl, here, rest⟩ | ⟨rest, same, whole⟩)
    · exact ⟨first, folders, last, rfl, matchesLeading_iff.mpr (.inl here), rest⟩
    · obtain ⟨front, long, rfl⟩ := eq_anyFolders_append same
      rw [long, setsEnd_anyFolders] at h
      obtain ⟨first, folders, last, rfl, here, rest⟩ := (matchesPlain_folders h).mp whole
      exact ⟨first, folders, last, rfl, matchesLeading_iff.mpr (.inr ⟨front, long, here⟩), rest⟩
  · rintro ⟨first, folders, last, rfl, here, rest⟩
    rcases matchesLeading_iff.mp here with here | ⟨front, long, here⟩
    · exact .inl ⟨first, folders, last, rfl, here, rest⟩
    · rw [long, setsEnd_anyFolders] at h
      rw [long]
      refine .inr ⟨front ++ (anyFolders ++ back), List.append_assoc .., ?_⟩
      exact (matchesPlain_folders h).mpr ⟨first, folders, last, rfl, here, rest⟩

/-- The component at any place: at the beginning of a pattern or behind what ends in a slash. -/
theorem matchesLeading_component (ends : front = [] ∨ IsFolders front)
    (h : setsEnd (anyFolders ++ back) 0 front = true) :
    matchesLeading path (front ++ (anyFolders ++ back)) = true ↔
      ∃ first folders last, path = first ++ (folders ++ last) ∧
        matchesLeading first front = true ∧ (IsFolders folders ∨ front = [] ∧ folders = []) ∧
        matchesPlain back last = true := by
  rcases ends with rfl | ends
  · rw [List.nil_append, matchesLeading_anyFolders]
    simp only [matchesLeading_nil, true_and]
    constructor
    · rintro ⟨folders, last, rfl, rest⟩
      exact ⟨[], folders, last, rfl, rfl, rest⟩
    · rintro ⟨_, folders, last, rfl, rfl, rest⟩
      exact ⟨folders, last, rfl, rest⟩
  · have filled : front ≠ [] := by
      obtain ⟨above, rfl⟩ := ends
      exact List.append_ne_nil_of_right_ne_nil above (List.cons_ne_nil _ _)
    simp only [matchesLeading_folders ends h, filled, false_and, or_false]

/-! ### Patterns with groups -/

theorem not_isBrace_anyFolders : ∀ c ∈ anyFolders, isBrace c = false := by
  simp [anyFolders, isBrace]

theorem matchesAny_iff {path pattern : String} :
    matchesAny path [pattern] = true ↔
      ∃ x ∈ expandChars pattern.toList, matchesLeading path.toList x = true := by
  simp only [matchesAny, matchesPattern, List.any_cons, List.any_nil, Bool.or_false,
    List.any_eq_true]

theorem mem_expandChars_nil {x : List Char} : x ∈ expandChars [] ↔ x = [] := by
  rw [expandChars_of_plain rfl, List.mem_singleton]

/-- What is expanded from the part before a component is empty or ends in a slash as well. -/
theorem ends_of_mem_expandChars {x : List Char} (ends : front = [] ∨ IsFolders front)
    (mem : x ∈ expandChars front) : (x = [] ∨ IsFolders x) ∧ (x = [] ↔ front = []) := by
  rcases ends with rfl | ⟨above, rfl⟩
  · obtain rfl := mem_expandChars_nil.mp mem
    exact ⟨.inl rfl, Iff.rfl⟩
  · have slash : ∀ c ∈ ['/'], isBrace c = false := List.forall_mem_singleton.mpr rfl
    have filled (cs : List Char) : cs ++ ['/'] ≠ [] :=
      List.append_ne_nil_of_right_ne_nil cs (List.cons_ne_nil _ _)
    rw [(groupsApart_of_forall above slash).mem_expandChars_append, expandChars_of_forall slash]
      at mem
    obtain ⟨a, -, b, single, rfl⟩ := mem
    obtain rfl := List.mem_singleton.mp single
    exact ⟨.inr ⟨a, rfl⟩, iff_of_false (filled a) (filled above)⟩

/-- The component stands at the beginning or behind a slash, and no group and no set begins before
it and ends behind it. -/
structure IsComponent (front back : String) : Prop where
  ends : front = "" ∨ IsFolders front.toList
  groups : GroupsApart front.toList back.toList
  sets : ∀ a ∈ expandChars front.toList, ∀ b ∈ expandChars back.toList,
    setsEnd (anyFolders ++ b) 0 a = true

theorem matchesAny_empty : matchesAny "" [""] = true :=
  matchesAny_iff.mpr ⟨[], mem_expandChars_nil.mpr rfl, rfl⟩

theorem isComponent_first (back : String) : IsComponent "" back where
  ends := .inl rfl
  groups := .of_nested rfl _
  sets := by
    intro a mem b _
    obtain rfl := mem_expandChars_nil.mp mem
    rfl

/-- The path is cut in three: what the part before a component matches, folders, and what one of the
patterns that the part behind it stands for matches as it is written. There is no folder only if the
component is at the beginning. -/
def Parted (front back path : String) : Prop :=
  ∃ first folders last, path = first ++ folders ++ last ∧ matchesAny first [front] = true ∧
    (IsFolders folders.toList ∨ front = "" ∧ folders = "") ∧
    ∃ x ∈ expandChars back.toList, matchesPlain x last.toList = true

theorem IsComponent.matchesAny_iff {front back : String} (h : IsComponent front back)
    (path : String) :
    matchesAny path [front ++ "**/" ++ back] = true ↔ Parted front back path := by
  have text : (front ++ "**/" ++ back).toList = front.toList ++ (anyFolders ++ back.toList) := by
    rw [String.toList_append, String.toList_append, List.append_assoc]
    rfl
  have beginning : front.toList = [] ∨ IsFolders front.toList :=
    h.ends.imp_left String.toList_eq_nil_iff.mpr
  rw [Glob.matchesAny_iff, text]
  simp only [h.groups.mem_expandChars_between not_isBrace_anyFolders]
  constructor
  · rintro ⟨_, ⟨a, before, b, behind, rfl⟩, leading⟩
    obtain ⟨ends, empty⟩ := ends_of_mem_expandChars beginning before
    obtain ⟨first, folders, last, cut, here, between, rest⟩ :=
      (matchesLeading_component ends (h.sets a before b behind)).mp leading
    refine ⟨.ofList first, .ofList folders, .ofList last, ?_, ?_, ?_, b, behind, ?_⟩
    · rw [← String.toList_inj, cut]
      simp
    · rw [Glob.matchesAny_iff, String.toList_ofList]
      exact ⟨a, before, here⟩
    · rw [String.toList_ofList]
      refine between.imp_right fun none => ⟨String.toList_eq_nil_iff.mp (empty.mp none.1), ?_⟩
      rw [none.2]
    · rwa [String.toList_ofList]
  · rintro ⟨first, folders, last, rfl, here, between, b, behind, rest⟩
    obtain ⟨a, before, here⟩ := Glob.matchesAny_iff.mp here
    obtain ⟨ends, empty⟩ := ends_of_mem_expandChars beginning before
    refine ⟨_, ⟨a, before, b, behind, rfl⟩, ?_⟩
    refine (matchesLeading_component ends (h.sets a before b behind)).mpr
      ⟨first.toList, folders.toList, last.toList, ?_, here, ?_, rest⟩
    · simp
    · refine between.imp_right fun none => ⟨empty.mpr ?_, ?_⟩
      · exact String.toList_eq_nil_iff.mpr none.1
      · exact String.toList_eq_nil_iff.mpr none.2

theorem matchesAny_of_mem_expandBraces {path pattern x : String} (mem : x ∈ expandBraces pattern) :
    matchesAny path [x] = true ↔ matchesLeading path.toList x.toList = true := by
  rw [matchesAny_iff, expandChars_of_not_sublist
    (not_sublist_of_mem_expandChars (mem_expandBraces.mp mem))]
  simp only [List.mem_singleton, exists_eq_left]

/-- A path matches a pattern where it matches one of those that its groups stand for, in which no
group is left. A component stands for folders: at the beginning of a pattern for none, one or more,
behind anything else for one or more. So what matches a pattern also matches it behind a component,
unless it only matches what follows the component that the pattern itself begins with. -/
theorem matchesAny_folders (path pattern : String) :
    (matchesAny path [pattern] = true ↔
      ∃ x ∈ expandBraces pattern, matchesAny path [x] = true) ∧
    (∀ front back, front ++ "**/" ++ back ∈ expandBraces pattern →
      GroupsApart front.toList back.toList) ∧
    (∀ front back, front ++ "**/" ++ back = pattern → IsComponent front back →
      (matchesAny path [pattern] = true ↔ Parted front back path)) ∧
    (matchesAny path [pattern] = true → matchesAny path ["**/" ++ pattern] = true ∨
      ∃ rest, "**/" ++ rest ∈ expandBraces pattern ∧
        matchesPlain rest.toList path.toList = true) := by
  refine ⟨?_, ?_, ?_, ?_⟩
  · constructor
    · intro matching
      obtain ⟨x, mem, leading⟩ := matchesAny_iff.mp matching
      have mem : String.ofList x ∈ expandBraces pattern := List.mem_map_of_mem mem
      exact ⟨_, mem, (matchesAny_of_mem_expandBraces mem).mpr (by rwa [String.toList_ofList])⟩
    · rintro ⟨x, mem, matching⟩
      exact matchesAny_iff.mpr ⟨_, mem_expandBraces.mp mem,
        (matchesAny_of_mem_expandBraces mem).mp matching⟩
  · intro front back mem
    have none := not_sublist_of_mem_expandChars (mem_expandBraces.mp mem)
    rw [String.toList_append, String.toList_append] at none
    refine .of_not_sublist fun sub => none (sub.trans ?_)
    exact (List.sublist_append_left front.toList _).append (.refl back.toList)
  · rintro front back rfl component
    exact component.matchesAny_iff path
  · intro matching
    obtain ⟨x, mem, leading⟩ := matchesAny_iff.mp matching
    rcases matchesLeading_iff.mp leading with whole | ⟨rest, rfl, whole⟩
    · have parted : Parted "" pattern path :=
        ⟨"", "", path, by simp, matchesAny_empty, .inr ⟨rfl, rfl⟩, x, mem, whole⟩
      exact .inl (((isComponent_first pattern).matchesAny_iff path).mpr parted)
    · have text : ("**/" ++ String.ofList rest).toList = anyFolders ++ rest := by
        simp [anyFolders]
      rw [← text] at mem
      exact .inr ⟨_, mem_expandBraces.mpr mem, by rwa [String.toList_ofList]⟩

/-- A file in a folder below `src`. -/
theorem matchesAny_folders_below :
    "src/" ++ "**/" ++ "*.tsx" = "src/**/*.tsx" ∧ IsComponent "src/" "*.tsx" ∧
      Parted "src/" "*.tsx" "src/lib/a.tsx" ∧
      matchesAny "src/lib/a.tsx" ["src/**/*.tsx"] = true := by
  have front : expandChars "src/".toList = ["src/".toList] := expandChars_of_plain (by decide)
  have back : expandChars "*.tsx".toList = ["*.tsx".toList] := expandChars_of_plain (by decide)
  have component : IsComponent "src/" "*.tsx" := by
    refine ⟨.inr ⟨"src".toList, by decide⟩, .of_nested (by decide) _, ?_⟩
    rw [front, back]
    decide
  have parted : Parted "src/" "*.tsx" "src/lib/a.tsx" := by
    refine ⟨"src/", "lib/", "a.tsx", by decide, ?_, .inl ⟨"lib".toList, by decide⟩, ?_⟩
    · exact matchesAny_iff.mpr ⟨_, by rw [front]; exact List.mem_cons_self, by decide⟩
    · exact ⟨_, by rw [back]; exact List.mem_cons_self, by decide⟩
  obtain ⟨_, _, folders, _⟩ := matchesAny_folders "src/lib/a.tsx" "src/**/*.tsx"
  have text : "src/" ++ "**/" ++ "*.tsx" = "src/**/*.tsx" := by decide
  exact ⟨text, component, parted, (folders _ _ text component).mpr parted⟩

/-- Behind `src/` the component does not stand for no folder, and of two components at the beginning
only one does. -/
theorem matchesAny_no_folder :
    (matchesAny "src/a.tsx" ["src/" ++ "*.tsx"] = true ∧
      matchesAny "src/a.tsx" ["src/" ++ "**/" ++ "*.tsx"] = false) ∧
    matchesAny "a.tsx" ["" ++ "**/*.tsx"] = true ∧
      matchesAny "a.tsx" ["" ++ "**/" ++ "**/*.tsx"] = false := by
  have plain (path pattern : String) (h : braceGroup? pattern.toList = none) :
      matchesAny path [pattern] = matchesLeading path.toList pattern.toList := by
    simp only [matchesAny, matchesPattern, List.any_cons, List.any_nil, Bool.or_false,
      expandChars_of_plain h]
  refine ⟨⟨?_, ?_⟩, ?_, ?_⟩ <;> rw [plain _ _ (by decide)] <;> decide

end JsxAudit.Text.Glob
