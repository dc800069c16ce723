import JsxAudit.Proofs.Text.Blank
import JsxAudit.Proofs.Text.Bytes
import JsxAudit.Source.PageContext

/-!
Routes of page files.

A route is found by looking for what follows the names of folders in the characters of a path, and
for the endings of what is found. Segment by segment this means: what follows is what comes behind a
segment of that very name (`afterSegments_append`), and of the endings only one fits
(`beforeEnding?_append`). So the route of a page file consists of the segments between the folder
`app` or `pages` and the end (`route?_of_pageFile`).
-/

namespace JsxAudit.Text

variable {segments folders : List String}

/-! ### Segments in a row -/

theorem toList_intercalate_cons (s : String) (filled : segments ≠ []) :
    ("/".intercalate (s :: segments)).toList = s.toList ++ '/' :: ("/".intercalate segments).toList := by
  obtain ⟨second, others, rfl⟩ := List.exists_cons_of_ne_nil filled
  rw [String.intercalate_cons_cons]
  simp

theorem intercalate_slash (some : folders ≠ []) (name : String) :
    ("/".intercalate (folders ++ [name])).toList =
      ("/".intercalate folders).toList ++ '/' :: name.toList := by
  rw [intercalate_append some (List.cons_ne_nil _ _), String.intercalate_singleton]
  simp

theorem intercalate_concat (folders : List String) (s suffix : String) :
    "/".intercalate (folders ++ [s ++ suffix]) = "/".intercalate (folders ++ [s]) ++ suffix := by
  cases folders with
  | nil => simp
  | cons first rest =>
    rw [intercalate_append (by simp) (by simp), intercalate_append (by simp) (by simp)]
    simp [String.append_assoc]

/-! ### Separators -/

theorem withSlashes_append (s s' : String) :
    withSlashes (s ++ s') = withSlashes s ++ withSlashes s' := by
  simp [withSlashes]

theorem withSlashes_of_not_mem {s : String} (clean : '\\' ∉ s.toList) : withSlashes s = s := by
  have same : (s.toList.map fun c => if c = '\\' then '/' else c) = s.toList := by
    refine (List.map_congr_left fun c mem => ?_).trans (List.map_id _)
    rw [if_neg, id_eq]
    rintro rfl
    exact clean mem
  rw [withSlashes, same, String.ofList_toList]

/-- Either separator may stand between segments. -/
theorem withSlashes_intercalate {sep : String} (turned : withSlashes sep = "/")
    (clean : ∀ s ∈ segments, '\\' ∉ s.toList) :
    withSlashes (sep.intercalate segments) = "/".intercalate segments := by
  induction segments with
  | nil => simp [withSlashes]
  | cons s rest ih =>
    obtain ⟨first, others⟩ := List.forall_mem_cons.mp clean
    cases rest with
    | nil => simpa using withSlashes_of_not_mem first
    | cons second more =>
      rw [String.intercalate_cons_cons, withSlashes_append, withSlashes_append, ih others, turned,
        withSlashes_of_not_mem first, String.intercalate_cons_cons]

end JsxAudit.Text

namespace JsxAudit.Source.PageContext

open Text

/-! ### Files that render pages -/

/-- A text that can stand between two separators of a path. -/
structure IsName (s : String) : Prop where
  filled : s ≠ ""
  noSlash : '/' ∉ s.toList
  noBackslash : '\\' ∉ s.toList
  noBreak : '\n' ∉ s.toList

instance (s : String) : Decidable (IsName s) :=
  decidable_of_iff (s ≠ "" ∧ '/' ∉ s.toList ∧ '\\' ∉ s.toList ∧ '\n' ∉ s.toList)
    ⟨fun ⟨filled, noSlash, noBackslash, noBreak⟩ => ⟨filled, noSlash, noBackslash, noBreak⟩,
      fun h => ⟨h.filled, h.noSlash, h.noBackslash, h.noBreak⟩⟩

/-- Where a file lies that renders a page: below `app` in a folder of its own, under the name `page`,
or below `pages` under a name of its own. -/
inductive PageFile where
  | inApp (folders : List String)
  | inPages (folders : List String) (name : String)

namespace PageFile

/-- The end of a path, from the folder `app` or `pages` on. -/
def segments (suffix : String) : PageFile → List String
  | inApp folders => "app" :: (folders ++ ["page" ++ suffix])
  | inPages folders name => "pages" :: (folders ++ [name ++ suffix])

/-- The segments of the route. The name `index` stands for the folder it is in. -/
def route : PageFile → List String
  | inApp folders => folders
  | inPages folders name => if name = "index" then folders else folders ++ [name]

/-- All folders have names, and so has the file; none of those below `pages` is called `app`. -/
def IsNamed : PageFile → Prop
  | inApp folders => ∀ s ∈ folders, IsName s
  | inPages folders name => (∀ s ∈ folders, IsName s ∧ s ≠ "app") ∧ IsName name

end PageFile

variable {name cs rest : List Char} {suffix : String} {row front more : List String}

/-! ### Behind a segment -/

theorem afterSegments_inside (clean : '/' ∉ cs) (rest : List Char) :
    afterSegments name false (cs ++ '/' :: rest) = afterSegments name true rest := by
  induction cs with
  | nil => simp [afterSegments]
  | cons c cs ih =>
    obtain ⟨ne, clean⟩ := List.ne_and_not_mem_of_not_mem_cons clean
    rw [List.cons_append, afterSegments, Bool.false_and, if_neg Bool.false_ne_true,
      decide_eq_false ne.symm]
    exact ih clean

theorem afterSegments_inside_last (clean : '/' ∉ cs) : afterSegments name false cs = [] := by
  induction cs with
  | nil => rfl
  | cons c cs ih =>
    obtain ⟨ne, clean⟩ := List.ne_and_not_mem_of_not_mem_cons clean
    rw [afterSegments, Bool.false_and, if_neg Bool.false_ne_true, decide_eq_false ne.symm]
    exact ih clean

/-- A name and a slash begin what the first segment is, if it is the name. -/
theorem isPrefixOf_segment (named : '/' ∉ name) (clean : '/' ∉ cs) (rest : List Char) :
    (name ++ ['/']).isPrefixOf (cs ++ '/' :: rest) = decide (cs = name) := by
  rw [Bool.eq_iff_iff, List.isPrefixOf_iff_prefix, decide_eq_true_eq]
  constructor
  · rintro ⟨tail, eq⟩
    rw [List.append_assoc, List.singleton_append] at eq
    have pieces := congrArg (splitChars '/') eq
    rw [splitChars_append named, splitChars_append clean] at pieces
    exact (List.cons.inj pieces).1.symm
  · rintro rfl
    exact ⟨rest, List.append_assoc ..⟩

/-- What comes behind the first segment is found if the segment has the name. -/
theorem afterSegments_append (filled : name ≠ []) (named : '/' ∉ name) (clean : '/' ∉ cs)
    (rest : List Char) : afterSegments name true (cs ++ '/' :: rest) =
      (if cs = name then [rest] else []) ++ afterSegments name true rest := by
  have found := isPrefixOf_segment named clean rest
  cases cs with
  | nil =>
    rw [List.nil_append] at found ⊢
    rw [afterSegments, found, if_neg (by simpa using filled.symm), if_neg filled.symm]
    rfl
  | cons c cs =>
    obtain ⟨ne, inside⟩ := List.ne_and_not_mem_of_not_mem_cons clean
    rw [List.cons_append] at found ⊢
    rw [afterSegments, found, decide_eq_false ne.symm, afterSegments_inside inside, Bool.true_and]
    by_cases same : c :: cs = name
    · subst same
      simp
    · simp [same]

theorem afterSegments_last (clean : '/' ∉ cs) : afterSegments name true cs = [] := by
  cases cs with
  | nil => rfl
  | cons c cs =>
    obtain ⟨ne, inside⟩ := List.ne_and_not_mem_of_not_mem_cons clean
    have absent : (name ++ ['/']).isPrefixOf (c :: cs) = false := by
      rw [Bool.eq_false_iff, ne_eq, List.isPrefixOf_iff_prefix]
      intro begins
      exact clean (begins.subset (by simp))
    rw [afterSegments, absent, decide_eq_false ne.symm, afterSegments_inside_last inside]
    rfl

/-! ### Behind a folder -/

variable {folder : String}

/-- Segments of other names are passed over. -/
theorem afterSegments_intercalate (filled : folder ≠ "") (named : '/' ∉ folder.toList)
    (some : more ≠ []) (others : ∀ s ∈ front, '/' ∉ s.toList ∧ s ≠ folder) :
    afterSegments folder.toList true ("/".intercalate (front ++ more)).toList =
      afterSegments folder.toList true ("/".intercalate more).toList := by
  induction front with
  | nil => rfl
  | cons s front ih =>
    obtain ⟨⟨clean, other⟩, others⟩ := List.forall_mem_cons.mp others
    rw [List.cons_append, toList_intercalate_cons s (by simp [some]),
      afterSegments_append (by simpa using filled) named clean,
      if_neg fun same => other (String.toList_inj.mp same), List.nil_append, ih others]

/-- Behind the first segment with the name is what follows it. -/
theorem afterSegments_folder (filled : folder ≠ "") (named : '/' ∉ folder.toList)
    (some : more ≠ []) (others : ∀ s ∈ front, '/' ∉ s.toList ∧ s ≠ folder) :
    afterSegments folder.toList true ("/".intercalate (front ++ folder :: more)).toList =
      ("/".intercalate more).toList ::
        afterSegments folder.toList true ("/".intercalate more).toList := by
  rw [afterSegments_intercalate filled named (List.cons_ne_nil _ _) others,
    toList_intercalate_cons folder some, afterSegments_append (by simpa using filled) named named,
    if_pos rfl]
  rfl

/-- A folder that is no segment but perhaps the last one has nothing behind it. -/
theorem afterSegments_eq_nil {last : String} (filled : folder ≠ "") (named : '/' ∉ folder.toList)
    (clean : '/' ∉ last.toList) (others : ∀ s ∈ front, '/' ∉ s.toList ∧ s ≠ folder) :
    afterSegments folder.toList true ("/".intercalate (front ++ [last])).toList = [] := by
  rw [afterSegments_intercalate filled named (List.cons_ne_nil _ _) others,
    String.intercalate_singleton, afterSegments_last clean]

/-! ### Endings -/

/-- An ending is known from the last three characters. -/
theorem pageSuffix_unique {cs cs' : List Char} {other : String} (known : suffix ∈ pageSuffixes)
    (known' : other ∈ pageSuffixes) (same : cs ++ suffix.toList = cs' ++ other.toList) :
    suffix = other := by
  have last (cs : List Char) {s : String} (known : s ∈ pageSuffixes) :
      (cs ++ s.toList).reverse.take 3 = s.toList.reverse.take 3 := by
    have long : ∀ s ∈ pageSuffixes, 3 ≤ s.toList.reverse.length := by decide
    rw [List.reverse_append, List.take_append_of_le_length (long s known)]
  have apart : ∀ s ∈ pageSuffixes, ∀ s' ∈ pageSuffixes,
      s.toList.reverse.take 3 = s'.toList.reverse.take 3 → s = s' := by
    decide
  refine apart suffix known other known' ?_
  rw [← last cs known, same, last cs' known']

/-- Characters without an ending. -/
theorem cut_eq_some_iff {ending : String} {found : List Char} :
    (if ending.toList.isSuffixOf cs then some (cs.take (cs.length - ending.length)) else none) =
      some found ↔ cs = found ++ ending.toList := by
  split
  · rename_i ends
    obtain ⟨before, rfl⟩ := List.isSuffixOf_iff_suffix.mp ends
    rw [List.length_append, String.length_toList, Nat.add_sub_cancel, List.take_left,
      Option.some.injEq, List.append_left_inj]
  · rename_i other
    refine iff_of_false nofun ?_
    rintro rfl
    exact other (List.isSuffixOf_iff_suffix.mpr (List.suffix_append _ _))

/-- What stands before the ending that a path has. -/
theorem beforeEnding?_append (known : suffix ∈ pageSuffixes) (lead : String) (cs : List Char) :
    beforeEnding? (pageSuffixes.map (lead ++ ·)) (cs ++ (lead ++ suffix).toList) = some cs := by
  have only : ∀ found, beforeEnding? (pageSuffixes.map (lead ++ ·))
      (cs ++ (lead ++ suffix).toList) = some found → found = cs := by
    intro found eq
    obtain ⟨_, mem, eq⟩ := List.exists_of_findSome?_eq_some eq
    obtain ⟨ending, known', rfl⟩ := List.mem_map.mp mem
    have whole := cut_eq_some_iff.mp eq
    rw [String.toList_append, String.toList_append, ← List.append_assoc, ← List.append_assoc]
      at whole
    obtain rfl := pageSuffix_unique known known' whole
    rw [List.append_left_inj, List.append_left_inj] at whole
    exact whole.symm
  cases found : beforeEnding? (pageSuffixes.map (lead ++ ·)) (cs ++ (lead ++ suffix).toList) with
  | some before => rw [only before found]
  | none =>
    have missed := List.findSome?_eq_none_iff.mp found _ (List.mem_map_of_mem known)
    cases missed.symm.trans (cut_eq_some_iff.mpr rfl)

/-- An ending with a slash is no ending of a last segment. -/
theorem beforeEnding?_of_clean (clean : '/' ∉ cs) :
    beforeEnding? (pageSuffixes.map ("/page" ++ ·)) cs = none := by
  refine List.findSome?_eq_none_iff.mpr fun _ mem => if_neg fun ends => clean ?_
  obtain ⟨ending, -, rfl⟩ := List.mem_map.mp mem
  exact (List.isSuffixOf_iff_suffix.mp ends).subset (by simp)

/-- No line break ends a path that has an ending. -/
theorem withoutBreak_intercalate (known : suffix ∈ pageSuffixes) (front : List String) (s : String) :
    withoutBreak ("/".intercalate (front ++ [s ++ suffix])).toList =
      ("/".intercalate (front ++ [s ++ suffix])).toList := by
  have last : ∀ s ∈ pageSuffixes, ∀ before, (before ++ s.toList).getLast? ≠ some '\n' := by
    intro s mem before
    simp only [pageSuffixes, List.mem_cons, List.not_mem_nil, or_false] at mem
    rcases mem with rfl | rfl | rfl | rfl <;> simp
  rw [intercalate_concat, String.toList_append, withoutBreak, if_neg (last suffix known _)]

/-! ### Names in a row -/

variable {folders : List String} {path : String}

theorem isOneLine_intercalate (some : row ≠ []) (names : ∀ s ∈ row, IsName s) :
    isOneLine ("/".intercalate row).toList = true := by
  have noBreak : '\n' ∉ ("/".intercalate row).toList :=
    not_mem_intercalate (by decide) fun s mem => (names s mem).noBreak
  have filled : ("/".intercalate row).toList ≠ [] := by
    obtain ⟨first, others, rfl⟩ := List.exists_cons_of_ne_nil some
    cases others with
    | nil => simpa using (names first List.mem_cons_self).filled
    | cons second rest =>
      rw [toList_intercalate_cons first (List.cons_ne_nil _ _)]
      simp
  simp only [isOneLine, List.isEmpty_eq_false_iff.mpr filled, List.contains_eq_mem, noBreak]
  rfl

/-! ### What is behind `app` and `pages` -/

theorem ofList_slash (s : String) : String.ofList ('/' :: s.toList) = "/" ++ s := by
  rw [← String.toList_inj]
  simp

/-- The page of a folder below the first one that is called `app`. -/
theorem route?_inApp (outside : ∀ s ∈ front, '/' ∉ s.toList ∧ s ≠ "app")
    (names : ∀ s ∈ folders, IsName s) (known : suffix ∈ pageSuffixes)
    (spelled : withSlashes path =
      "/".intercalate (front ++ "app" :: (folders ++ ["page" ++ suffix]))) :
    route? path = some ("/" ++ "/".intercalate folders) := by
  have behind : afterSegments "app".toList true (withoutBreak (withSlashes path).toList) =
      ("/".intercalate (folders ++ ["page" ++ suffix])).toList ::
        afterSegments "app".toList true
          ("/".intercalate (folders ++ ["page" ++ suffix])).toList := by
    rw [← List.cons_append, ← List.append_assoc] at spelled
    rw [spelled, withoutBreak_intercalate known, List.append_assoc, List.cons_append,
      afterSegments_folder (by decide) (by decide) (by simp) outside]
  unfold route?
  dsimp only
  rw [behind]
  cases folders with
  | nil =>
    have clean : '/' ∉ ("page" ++ suffix).toList := by
      have each : ∀ s ∈ pageSuffixes, '/' ∉ ("page" ++ s).toList := by decide
      exact each suffix known
    have page : (pageSuffixes.any fun s => ("page" ++ s).toList = ("page" ++ suffix).toList) = true :=
      List.any_eq_true.mpr ⟨suffix, known, decide_eq_true rfl⟩
    rw [List.nil_append, String.intercalate_singleton, afterSegments_last clean,
      List.findSome?_singleton, beforeEnding?_of_clean clean, List.any_cons, page]
    rfl
  | cons first rest =>
    have found := beforeEnding?_append known "/page" ("/".intercalate (first :: rest)).toList
    have line := isOneLine_intercalate (List.cons_ne_nil first rest) names
    have slash : "/" ++ "page" = "/page" := rfl
    rw [intercalate_append (by simp) (by simp), String.intercalate_singleton, String.append_assoc,
      ← @String.append_assoc "/", slash, String.toList_append, List.findSome?_cons, found,
      Option.filter_some, if_pos line]
    exact congrArg some (ofList_slash _)

/-- The last segment is dropped if it is `index`. -/
theorem dropIndex_intercalate {name : String} (named : '/' ∉ name.toList) (folders : List String) :
    dropIndex ("/".intercalate (folders ++ [name])).toList =
      ("/".intercalate (if name = "index" then folders else folders ++ [name])).toList := by
  unfold dropIndex
  by_cases top : folders = []
  · subst top
    have other : "/index".toList.isSuffixOf name.toList = false := by
      rw [Bool.eq_false_iff, ne_eq, List.isSuffixOf_iff_suffix]
      exact fun ends => named (ends.subset (by simp))
    rw [List.nil_append, String.intercalate_singleton, other, if_neg Bool.false_ne_true]
    by_cases index : name = "index"
    · rw [index, if_pos rfl, if_pos rfl]
      rfl
    · rw [if_neg fun same => index (String.toList_inj.mp same), if_neg index,
        String.intercalate_singleton]
  · have other : ("/".intercalate (folders ++ [name])).toList ≠ "index".toList := by
      intro same
      have mem : '/' ∈ "index".toList := by
        rw [← same, intercalate_slash top]
        simp
      exact absurd mem (by decide)
    have ends : "/index".toList.isSuffixOf ("/".intercalate (folders ++ [name])).toList =
        decide (name = "index") := by
      have turned : '/' ∉ "index".toList.reverse ∧ '/' ∉ name.toList.reverse :=
        ⟨by decide, by simpa using named⟩
      have found := isPrefixOf_segment turned.1 turned.2 ("/".intercalate folders).toList.reverse
      rw [intercalate_slash top, List.isSuffixOf, List.reverse_append, List.reverse_cons,
        List.append_assoc, List.singleton_append]
      refine found.trans (decide_eq_decide.mpr ?_)
      rw [List.reverse_inj, String.toList_inj]
    rw [if_neg other, ends]
    by_cases index : name = "index"
    · rw [decide_eq_true index, if_pos rfl, if_pos index, intercalate_slash top, index]
      simp
    · rw [decide_eq_false index, if_neg Bool.false_ne_true, if_neg index]

/-- The file below the first folder that is called `pages`, where no folder is called `app`. -/
theorem route?_inPages {name : String}
    (outside : ∀ s ∈ front, '/' ∉ s.toList ∧ s ≠ "app" ∧ s ≠ "pages")
    (names : ∀ s ∈ folders, IsName s ∧ s ≠ "app") (named : IsName name)
    (known : suffix ∈ pageSuffixes)
    (spelled : withSlashes path =
      "/".intercalate (front ++ "pages" :: (folders ++ [name ++ suffix]))) :
    route? path =
      some ("/" ++ "/".intercalate (if name = "index" then folders else folders ++ [name])) := by
  have clean : '/' ∉ (name ++ suffix).toList := by
    have each : ∀ s ∈ pageSuffixes, '/' ∉ s.toList := by decide
    exact not_mem_toList_append named.noSlash (each suffix known)
  rw [← List.cons_append, ← List.append_assoc] at spelled
  have chars : withoutBreak (withSlashes path).toList =
      ("/".intercalate (front ++ "pages" :: folders ++ [name ++ suffix])).toList := by
    rw [spelled, withoutBreak_intercalate known]
  have noApp : afterSegments "app".toList true (withoutBreak (withSlashes path).toList) = [] := by
    rw [chars, afterSegments_eq_nil (by decide) (by decide) clean]
    intro s mem
    rcases List.mem_append.mp mem with mem | mem
    · exact ⟨(outside s mem).1, (outside s mem).2.1⟩
    · rcases List.mem_cons.mp mem with rfl | mem
      · decide
      · exact ⟨(names s mem).1.noSlash, (names s mem).2⟩
  have behind : afterSegments "pages".toList true (withoutBreak (withSlashes path).toList) =
      ("/".intercalate (folders ++ [name ++ suffix])).toList ::
        afterSegments "pages".toList true
          ("/".intercalate (folders ++ [name ++ suffix])).toList := by
    rw [chars, List.append_assoc, List.cons_append, afterSegments_folder (by decide) (by decide)
      (by simp) fun s mem => ⟨(outside s mem).1, (outside s mem).2.2⟩]
  have found : beforeEnding? pageSuffixes
      (("/".intercalate (folders ++ [name])).toList ++ suffix.toList) =
        some ("/".intercalate (folders ++ [name])).toList :=
    beforeEnding?_append known "" ("/".intercalate (folders ++ [name])).toList
  have line : isOneLine ("/".intercalate (folders ++ [name])).toList = true := by
    refine isOneLine_intercalate (by simp) fun s mem => ?_
    rcases List.mem_append.mp mem with mem | mem
    · exact (names s mem).1
    · rwa [List.mem_singleton.mp mem]
  unfold route?
  dsimp only
  rw [noApp, behind, List.findSome?_nil, List.any_nil, if_neg Bool.false_ne_true, intercalate_concat,
    String.toList_append, List.findSome?_cons, found, Option.filter_some, if_pos line]
  exact congrArg some ((congrArg (fun cs => String.ofList ('/' :: cs))
    (dropIndex_intercalate named.noSlash folders)).trans (ofList_slash _))

namespace PageFile

theorem clean_of_mem_segments {page : PageFile} (named : page.IsNamed)
    (known : suffix ∈ pageSuffixes) : ∀ s ∈ page.segments suffix, '\\' ∉ s.toList := by
  have each : ∀ s ∈ pageSuffixes, '\\' ∉ s.toList ∧ '\\' ∉ ("page" ++ s).toList := by decide
  intro s mem
  cases page with
  | inApp folders =>
    simp only [segments, List.mem_cons, List.mem_append, List.not_mem_nil, or_false] at mem
    rcases mem with rfl | mem | rfl
    · decide
    · exact (named s mem).noBackslash
    · exact (each suffix known).2
  | inPages folders name =>
    simp only [segments, List.mem_cons, List.mem_append, List.not_mem_nil, or_false] at mem
    rcases mem with rfl | mem | rfl
    · decide
    · exact (named.1 s mem).1.noBackslash
    · exact not_mem_toList_append named.2.noBackslash (each suffix known).1

end PageFile

/-- The route of a page file consists of the segments behind the folder `app` or `pages`, if none of
the segments in front of it has one of these names. These may be empty, so that the path may be
absolute. It makes no difference which separator stands between which segments. -/
theorem route?_of_pageFile {page : PageFile}
    (outside : ∀ s ∈ front, '/' ∉ s.toList ∧ '\\' ∉ s.toList ∧ s ≠ "app" ∧ s ≠ "pages")
    (named : page.IsNamed) (known : suffix ∈ pageSuffixes) :
    (∀ sep ∈ ["/", "\\"], route? (sep.intercalate (front ++ page.segments suffix)) =
      some ("/" ++ "/".intercalate page.route)) ∧
    ∀ path, withSlashes path = "/".intercalate (front ++ page.segments suffix) →
      route? path = some ("/" ++ "/".intercalate page.route) := by
  have spelled (path : String)
      (eq : withSlashes path = "/".intercalate (front ++ page.segments suffix)) :
      route? path = some ("/" ++ "/".intercalate page.route) := by
    cases page with
    | inApp folders =>
      exact route?_inApp (fun s mem => ⟨(outside s mem).1, (outside s mem).2.2.1⟩) named known eq
    | inPages folders name =>
      exact route?_inPages (fun s mem => ⟨(outside s mem).1, (outside s mem).2.2⟩) named.1 named.2
        known eq
  refine ⟨fun sep mem => spelled _ (withSlashes_intercalate ?_ fun s mem => ?_), spelled⟩
  · revert sep
    decide
  · rcases List.mem_append.mp mem with mem | mem
    · exact (outside s mem).2.1
    · exact page.clean_of_mem_segments named known s mem

/-- Below `app` in folders with a group, a dot and the other names, and below `pages` under the name
`index` in a folder of that name, from the root on. -/
theorem route?_of_pageFile_index :
    let inApp := PageFile.inApp ["app", "(shop)", "v2.page", "pages", "index"]
    let inPages := PageFile.inPages ["pages", "index"] "index"
    (∀ s ∈ ["C:", "my app"], '/' ∉ s.toList ∧ '\\' ∉ s.toList ∧ s ≠ "app" ∧ s ≠ "pages") ∧
      (∀ s ∈ ["", "srv"], '/' ∉ s.toList ∧ '\\' ∉ s.toList ∧ s ≠ "app" ∧ s ≠ "pages") ∧
      inApp.IsNamed ∧ inPages.IsNamed ∧ ".ts" ∈ pageSuffixes ∧ ".jsx" ∈ pageSuffixes ∧
      route? "C:\\my app\\app\\app\\(shop)\\v2.page\\pages\\index\\page.ts" =
        some "/app/(shop)/v2.page/pages/index" ∧
      route? "/srv/pages/pages/index/index.jsx" = some "/pages/index" := by
  intro inApp inPages
  have outside : ∀ s ∈ ["C:", "my app"],
      '/' ∉ s.toList ∧ '\\' ∉ s.toList ∧ s ≠ "app" ∧ s ≠ "pages" := by
    decide
  have outside' : ∀ s ∈ ["", "srv"],
      '/' ∉ s.toList ∧ '\\' ∉ s.toList ∧ s ≠ "app" ∧ s ≠ "pages" := by
    decide
  have named : inApp.IsNamed := show ∀ s ∈ _, IsName s by decide
  have named' : inPages.IsNamed :=
    ⟨show ∀ s ∈ _, IsName s ∧ s ≠ "app" by decide, by decide⟩
  have known : ".ts" ∈ pageSuffixes := by decide
  have known' : ".jsx" ∈ pageSuffixes := by decide
  obtain ⟨first, -⟩ := route?_of_pageFile outside named known
  obtain ⟨second, -⟩ := route?_of_pageFile outside' named' known'
  exact ⟨outside, outside', named, named', known, known', first "\\" (by decide),
    second "/" (by decide)⟩

end JsxAudit.Source.PageContext
