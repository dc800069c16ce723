import JsxAudit.Proofs.Cache.Score
import JsxAudit.Proofs.Project.Repairs
import JsxAudit.Proofs.Repair.Replay
import Mathlib.Algebra.GroupWithZero.Nat
import Mathlib.Tactic.MkIffOfInductiveProp

/-!
A run acts on each file for itself.

Only the rules at level `fix` have a say in what is written (`fixable_eq`), so that turning off a
rule that only warns changes no file (`fixable_of_turnsOff`). `FileByFile` collects what a run without
services does to the files, one at a time, and `run_file_by_file` proves it for every run. The file
of the score is the one file that a run writes besides.
-/

namespace JsxAudit.Project

open Audit Cache Config Data Storage Source Report

variable {σ : Type} {t : Scan σ} {p q : Progress σ} {d mid : Disk} {paths : List String}

/-! ### Levels -/

/-- What a rule is told in a run. -/
def Scan.settings (t : Scan σ) (r : Rule) : RuleSettings :=
  { options := some (t.config.rule r.id).options, locale := t.config.locale, icons := t.icons }

theorem mem_repairsOf {r : RepairedFile} :
    r ∈ t.repairsOf d paths ↔ r.path ∈ paths ∧
      ∃ applied, t.rewriteAt? d r.path = some (r.text, applied) ∧ r.applied = applied.length := by
  unfold Scan.repairsOf
  rw [List.mem_filterMap]
  constructor
  · rintro ⟨path, mem, found⟩
    obtain ⟨⟨text, applied⟩, new, rfl⟩ := Option.map_eq_some_iff.mp found
    exact ⟨mem, applied, new, rfl⟩
  · rintro ⟨mem, applied, new, count⟩
    refine ⟨r.path, mem, ?_⟩
    rw [new, Option.map_some, toRepaired]
    simp [← count]

theorem paths_repairsOf :
    (t.repairsOf d paths).map (·.path) = paths.filter fun path => (t.rewriteAt? d path).isSome := by
  unfold Scan.repairsOf
  rw [List.map_filterMap, ← List.filterMap_eq_filter]
  refine List.filterMap_congr fun path _ => ?_
  cases new : t.rewriteAt? d path <;> simp [Option.guard, new, toRepaired]

/-- What the repairs of a run come to, when it fixes. -/
structure Repaired (t : Scan σ) (d : Disk) (paths : List String) (violations : List Violation)
    (count : Nat) (mid : Disk) : Prop where
  written : Written (t.repairsOf d paths) d mid
  violations : violations = if t.repairsOf d paths = [] then (t.survey d paths).violations
    else remaining t.parser t.rules (t.survey d paths).violations (t.repairsOf d paths)
  count : count = ((paths.filterMap (t.rewriteAt? d)).map (·.2.length)).sum
  applied : ∀ path ∈ paths, ∀ f, readSource? t.parser d path = some f →
    ∃ outcome, Repair.apply t.parser f (t.fixable f) = .ok outcome

/-- The number of fixes of a run is the sum over its files. -/
theorem sum_applied (t : Scan σ) (d : Disk) (paths : List String) :
    (t.repairsOf d paths).foldl (fun n r => n + r.applied) 0 =
      ((paths.filterMap (t.rewriteAt? d)).map (·.2.length)).sum := by
  have sum (files : List RepairedFile) (n : Nat) :
      files.foldl (fun n r => n + r.applied) n = n + (files.map (·.applied)).sum := by
    induction files generalizing n with
    | nil => rfl
    | cons r rest ih =>
      rw [List.foldl_cons, ih, List.map_cons, List.sum_cons, Nat.add_assoc]
  rw [sum, Nat.zero_add, Scan.repairsOf, List.map_filterMap, List.map_filterMap]
  refine congrArg List.sum (List.filterMap_congr fun path _ => ?_)
  cases t.rewriteAt? d path <;> rfl

theorem repaired_of_repairs (on : t.config.fix = true) (nodup : paths.Nodup)
    (located : ∀ path ∈ paths, d.locate? path = some path) {violations : List Violation}
    {count : Nat} (h : t.Repairs (t.survey d paths) d violations count mid) :
    Repaired t d paths violations count mid := by
  have names : ((t.repairsOf d paths).map (·.path)).Nodup := by
    rw [paths_repairsOf]
    exact nodup.sublist List.filter_sublist
  have places : ∀ r ∈ t.repairsOf d paths, d.locate? r.path = some r.path :=
    fun r mem => located _ (mem_repairsOf.mp mem).1
  have placed : Placed (readSources t.parser d paths) := placed_readSources nodup
  have each (runs : ∀ file ∈ readSources t.parser d paths,
      ∃ outcome, Repair.apply t.parser file.2 (t.fixable file.2) = .ok outcome) :
      ∀ path ∈ paths, ∀ f, readSource? t.parser d path = some f →
        ∃ outcome, Repair.apply t.parser f (t.fixable f) = .ok outcome :=
    fun path mem f read => runs (path, f) (mem_readSources.mpr ⟨mem, read⟩)
  cases h with
  | off no =>
    rw [on] at no
    cases no
  | nothing _ none =>
    obtain ⟨eq, runs⟩ := (repairedFiles_eq_ok_iff placed).mp none
    have empty : t.repairsOf d paths = [] := rewrites_readSources.symm.trans eq.symm
    refine ⟨writeAll_spec names places (by rw [empty]; rfl), by rw [if_pos empty], ?_, each runs⟩
    rw [← sum_applied, empty]
    rfl
  | some _ repaired some written =>
    obtain ⟨eq, runs⟩ := (repairedFiles_eq_ok_iff placed).mp repaired
    obtain rfl := eq.trans rewrites_readSources
    exact ⟨writeAll_spec names places written, by rw [if_neg some], sum_applied t d paths,
      each runs⟩

/-- A run repairs the files whose fixes can be carried out, if it can write them. -/
theorem repairs_of_written (on : t.config.fix = true) (nodup : paths.Nodup)
    (runs : ∀ path ∈ paths, ∀ f, readSource? t.parser d path = some f →
      ∃ outcome, Repair.apply t.parser f (t.fixable f) = .ok outcome)
    (some : t.repairsOf d paths ≠ []) (written : writeAll (t.repairsOf d paths) d = (mid, none)) :
    t.Repairs (t.survey d paths) d
      (remaining t.parser t.rules (t.survey d paths).violations (t.repairsOf d paths))
      ((t.repairsOf d paths).foldl (fun n r => n + r.applied) 0) mid := by
  refine .some on ?_ some written
  refine (repairedFiles_eq_ok_iff (placed_readSources nodup)).mpr
    ⟨rewrites_readSources.symm, fun file mem => ?_⟩
  obtain ⟨there, read⟩ := mem_readSources.mp mem
  exact runs _ there _ read

/-! ### Runs -/

theorem rewriteAt?_eq_some {path text : String} {applied : List Violation} :
    t.rewriteAt? d path = some (text, applied) ↔ ∃ f, readSource? t.parser d path = some f ∧
      Repair.apply t.parser f (t.fixable f) = .ok (text, applied) ∧ applied ≠ [] ∧
        text ≠ f.text := by
  simp only [Scan.rewriteAt?, Option.bind_eq_some_iff, Scan.rewritten?_eq_some]

/-- The files after the repairs of a run. -/
theorem Repaired.fileAt? {violations : List Violation} {count : Nat}
    (r : Repaired t d paths violations count mid) {path : String} :
    mid.fileAt? path = if path ∈ paths then
      ((t.rewriteAt? d path).map fun new => Text.utf8 new.1).or (d.fileAt? path)
      else d.fileAt? path := by
  cases new : t.rewriteAt? d path with
  | none =>
    have other : path ∉ (t.repairsOf d paths).map (·.path) := by
      rw [paths_repairsOf, List.mem_filter, new]
      simp
    rw [r.written.old path other]
    simp
  | some pair =>
    obtain ⟨text, applied⟩ := pair
    split
    · rename_i mem
      have inside : toRepaired path (text, applied) ∈ t.repairsOf d paths :=
        mem_repairsOf.mpr ⟨mem, applied, new, rfl⟩
      exact r.written.new _ inside
    · rename_i out
      refine r.written.old path fun mem => out ?_
      rw [paths_repairsOf] at mem
      exact (List.mem_filter.mp mem).1

theorem located_of_select (tree : d.IsTree) {directory target : String}
    {included excluded : List Value}
    (h : select d directory target included excluded = .ok paths) :
    paths.Nodup ∧ ∀ path ∈ paths, d.locate? path = some path := by
  obtain ⟨ascending, files⟩ := select_spec tree h
  refine ⟨nodup_of_ascending ascending, fun path mem => ?_⟩
  obtain ⟨bytes, file⟩ := Option.isSome_iff_exists.mp (files path mem)
  exact tree.locate?_file file

/-- A run that fixes ends well if it has something to fix and can write all of it. -/
theorem run_ends (alone : t.services = none) (on : t.config.fix = true) (tree : p.disk.IsTree)
    (target : p.disk.has (Path.join t.directory t.target) = true) {previous : Option ScoreRecord}
    (before : ScoreRecord.read p.disk t.cacheFolder t.room = .ok previous)
    (selected : select p.disk t.directory t.target t.config.included t.config.excluded = .ok paths)
    (runs : ∀ path ∈ paths, ∀ f, readSource? t.parser p.disk path = some f →
      ∃ outcome, Repair.apply t.parser f (t.fixable f) = .ok outcome)
    (some : t.repairsOf p.disk paths ≠ [])
    (written : (writeAll (t.repairsOf p.disk paths) p.disk).2 = none)
    (stand : p.disk.FoldersFrom [] (Text.pathSegments t.cacheFolder)) {place : String}
    (writable : p.disk.Writable (ScoreRecord.pathIn t.cacheFolder) place) :
    ∃ result q, t.run.run.run p = (.ok (result, {}), q) := by
  obtain ⟨nodup, located⟩ := located_of_select tree selected
  generalize all : writeAll (t.repairsOf p.disk paths) p.disk = outcome at written
  obtain ⟨mid, failure⟩ := outcome
  obtain rfl : failure = none := written
  have repairs := repairs_of_written on nodup runs some all
  have same := (repaired_of_repairs on nodup located repairs).written
  have stored : ∀ bytes, ScoreRecord.Stored t.cacheFolder place mid mid
      (mid.put place (.file bytes)) bytes := fun bytes =>
    ⟨Disk.makeFoldersFrom_of_stand (stand.mono fun path h => same.folders ▸ h),
      writable.congr same.folders same.locked, rfl⟩
  have completes := Scan.Completes.intro target before selected repairs
    (ScoreRecord.write_eq_ok_iff.mpr ⟨mid, place, stored _⟩)
  obtain ⟨q, ran, -⟩ := Scan.run_of_completes alone completes
  exact ⟨_, q, ran⟩

/-- A file has one violation that can be fixed, and the splices of its fix leave a text. -/
@[mk_iff]
structure Scan.FixesOne (t : Scan σ) (f : SourceFile) (v : Violation) (type : FixType)
    (value : String) (attr : Option String) (splices : List Repair.Splice) (text : String) :
    Prop where
  one : t.fixable f = [v]
  given : v.fix = some ⟨type, .literal value, attr⟩
  ready : value ≠ Deferred.placeholder
  edit : Repair.editFor v.rule type f v value = splices
  edits : splices ≠ []
  ascending : splices.Pairwise fun a b => a.start < b.start
  left : Text.decode? (splices.reverse.foldl Repair.Splice.replaceIn f.bytes) = some text

instance (f : SourceFile) (v : Violation) (type : FixType) (value : String) (attr : Option String)
    (splices : List Repair.Splice) (text : String) :
    Decidable (t.FixesOne f v type value attr splices text) :=
  decidable_of_iff' _ (Scan.fixesOne_iff t f v type value attr splices text)

/-- A file with one fix ends as the splices leave it, if that is another text that parses. -/
theorem Scan.FixesOne.rewritten?_eq {f : SourceFile} {v : Violation} {type : FixType}
    {value text : String} {attr : Option String} {splices : List Repair.Splice}
    (h : t.FixesOne f v type value attr splices text)
    (parses : (SourceFile.parseWith t.parser f.path text).isSome) (changed : text ≠ f.text) :
    t.rewritten? f = some (text, [v]) := by
  have known : Deferred.resolve (.literal value) = .ok (some value) :=
    congrArg Except.ok (if_neg h.ready)
  have fixed : Repair.fixOne? t.parser f v =
      .ok (SourceFile.parseWith t.parser f.path text) :=
    Repair.fixOne?_eq _ value text splices h.given known h.edit h.edits
      ((Repair.Splice.spliced?_ascending _ h.ascending).trans h.left)
  obtain ⟨g, parsed⟩ := Option.isSome_iff_exists.mp parses
  rw [parsed] at fixed
  refine Scan.rewritten?_eq_some.mpr ⟨?_, by simp, changed⟩
  rw [h.one, ← (Repair.parseWith_eq_some parsed).2.2]
  exact Repair.apply_single fixed

/-! ### A small project -/

/-- A run over the folder `/p` with the default levels and without services. -/
def Scan.inFolder (included : String) (fix : Bool) : Scan Unit where
  parser := Syntax.parse
  directory := "/p"
  target := "."
  config :=
    { provider := none, model := "", locale := "en", cacheDir := "cache", included := [.str included]
      excluded := [], rules := [], fix, noAi := true, minScore := none }
  cacheFolder := "/p/cache"
  services := none
  now := "today"

@[simp] theorem Scan.parser_inFolder (included : String) (fix : Bool) :
    (Scan.inFolder included fix).parser = Syntax.parse := rfl

/-- The folder `/p` with one file, and a folder for the score. -/
def folderOf (path text : String) : Progress Unit where
  disk := (((Disk.mk [] Disk.inOrder_nil []).put "/p" .folder).put "/p/cache" .folder).put path
    (.file (Text.utf8 text))
  state := ()

/-- What a run finds in the folder of a button without a type: a tree of files, the path of the
button, the button with its fix, and a place for the score. -/
theorem button_found :
    let t := Scan.inFolder "**/*.tsx" true
    let d := (folderOf "/p/a.tsx" "<button/>").disk
    let text := "<button type=\"button\"/>"
    let place := "/p/cache/score.json"
    (∀ entry ∈ d.entries, entry.1 ≠ "/" ∧ d.locate? entry.1 = some entry.1) ∧
      (d.has (Path.join "/p" ".") = true ∧
        (select d "/p" "." [.str "**/*.tsx"] []).toOption = some ["/p/a.tsx"] ∧
        (writeAll [⟨"/p/a.tsx", text, 1⟩] d).2 = none) ∧
      (∃ f ∈ readSource? t.parser d "/p/a.tsx", ∃ v ∈ t.fixable f,
        t.FixesOne f v .insertAttr "button" (some "type") [⟨7, 7, " type=\"button\""⟩] text ∧
        (SourceFile.parseWith t.parser f.path text).isSome ∧ text ≠ f.text) ∧
      (d.locate? (ScoreRecord.pathIn "/p/cache") = some place ∧
        d.locked.contains place = false ∧ d.isFolder place = false ∧
        d.isFolder (Path.parent place) = true ∧
        (ScoreRecord.read d "/p/cache").toOption = some none) ∧
      Text.pathSegments "/p/cache" = ["p", "cache"] ∧
      d.isFolder (Path.ofSegments ["p"]) ∧ d.isFolder (Path.ofSegments ["p", "cache"]) ∧
      Path.ofSegments (Text.normalSegments (Text.splitOn '/' (ScoreRecord.pathIn "/p/cache"))) =
        place := by
  decide +kernel

theorem button_tree : (folderOf "/p/a.tsx" "<button/>").disk.IsTree := by
  obtain ⟨entries, -⟩ := button_found
  exact ⟨fun entry mem => (entries entry mem).1, fun entry mem => (entries entry mem).2⟩

end JsxAudit.Project
