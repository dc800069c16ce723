import JsxAudit.Asset.Alias
import JsxAudit.Proofs.Data.Keyed

/-!
Which pattern decides about a module.

Among the patterns that match a module there is a closest one: the name of the module itself, or
else the longest beginning (`exists_closest`). The table is not searched for it. The first pattern
that matches decides, so that the closest one decides in every order of the table only if all that
match lead to the same path; it does so in an order in which closer patterns come first
(`aliasPath?_closest`).
-/

namespace JsxAudit.Asset

open Data Storage

variable {d : Disk} {root folder module : String} {patterns : Fields} {entry other : String × Value}

/-! ### Patterns that match -/

/-- The pattern is the name of the module, or stands for all modules that begin alike. -/
def Matches (pattern module : String) : Prop :=
  match wildcard? pattern with
  | some start => ∃ rest, module = start ++ rest
  | none => pattern = module

/-- The pattern matches, and stands for something. -/
structure Decides (module : String) (entry : String × Value) : Prop where
  given : entry.2.isTruthy = true
  fits : Matches entry.1 module

/-- An entry that does not decide leads nowhere. -/
theorem mapped?_of_not_decides (h : ¬ Decides module entry) :
    mapped? folder entry.1 module entry.2 = .ok none := by
  unfold mapped?
  cases given : entry.2.isTruthy with
  | false => rfl
  | true =>
    have fits : ¬ Matches entry.1 module := fun fits => h ⟨given, fits⟩
    unfold Matches at fits
    cases kind : wildcard? entry.1 with
    | none =>
      rw [kind] at fits
      simp only [Bool.not_true, Bool.false_eq_true, if_false, if_neg fits]
      rfl
    | some start =>
      rw [kind] at fits
      have none : Text.after? start module = none := by
        rw [Option.eq_none_iff_forall_ne_some]
        exact fun rest found => fits ⟨rest, Text.after?_eq_some_iff.mp found⟩
      simp only [Bool.not_true, Bool.false_eq_true, if_false, none]
      rfl

/-- An entry that decides leads to a path, or is no list of texts. -/
theorem mapped?_of_decides (h : Decides module entry) :
    mapped? folder entry.1 module entry.2 ≠ .ok none := by
  obtain ⟨given, fits⟩ := h
  unfold mapped?
  unfold Matches at fits
  cases kind : wildcard? entry.1 with
  | none =>
    rw [kind] at fits
    simp only [given, Bool.not_true, Bool.false_eq_true, if_false, if_pos fits]
    cases firstMapping entry.2 with
    | error fault => exact nofun
    | ok mapping => cases mapping <;> exact nofun
  | some start =>
    rw [kind] at fits
    obtain ⟨rest, begins⟩ := fits
    simp only [given, Bool.not_true, Bool.false_eq_true, if_false, Text.after?_eq_some_iff.mpr begins]
    cases firstMapping entry.2 with
    | error fault => exact nofun
    | ok mapping => cases mapping <;> exact nofun

theorem firstMatch_skip (h : ¬ Decides module entry) (rest : Fields) :
    AliasTable.firstMatch folder module (entry :: rest) =
      AliasTable.firstMatch folder module rest := by
  rw [AliasTable.firstMatch, mapped?_of_not_decides h]
  rfl

theorem firstMatch_of_decides (h : Decides module entry) (rest : Fields) :
    AliasTable.firstMatch folder module (entry :: rest) =
      mapped? folder entry.1 module entry.2 := by
  rw [AliasTable.firstMatch]
  cases leads : mapped? folder entry.1 module entry.2 with
  | error fault => rfl
  | ok path =>
    cases path with
    | none => exact (mapped?_of_decides h leads).elim
    | some path => rfl

/-! ### The first one -/

/-- The entry decides, and none before it does. -/
def First (module : String) (patterns : Fields) (entry : String × Value) : Prop :=
  ∃ before after, patterns = before ++ entry :: after ∧ Decides module entry ∧
    ∀ other ∈ before, ¬ Decides module other

theorem First.mem (h : First module patterns entry) : entry ∈ patterns := by
  obtain ⟨before, after, rfl, -⟩ := h
  simp

theorem none_or_first (module : String) (patterns : Fields) :
    (∀ entry ∈ patterns, ¬ Decides module entry) ∨ ∃ entry, First module patterns entry := by
  induction patterns with
  | nil => exact .inl nofun
  | cons head rest ih =>
    by_cases decides : Decides module head
    · exact .inr ⟨head, [], rest, rfl, decides, nofun⟩
    · rcases ih with none | ⟨entry, before, after, rfl, this, others⟩
      · exact .inl (List.forall_mem_cons.mpr ⟨decides, none⟩)
      · exact .inr ⟨entry, head :: before, after, rfl, this,
          List.forall_mem_cons.mpr ⟨decides, others⟩⟩

theorem firstMatch_of_none (idle : ∀ entry ∈ patterns, ¬ Decides module entry) :
    AliasTable.firstMatch folder module patterns = .ok none := by
  induction patterns with
  | nil => rfl
  | cons head rest ih =>
    obtain ⟨first, others⟩ := List.forall_mem_cons.mp idle
    rw [firstMatch_skip first, ih others]

/-- The path is that of the first pattern that decides. -/
theorem firstMatch_of_first (h : First module patterns entry) :
    AliasTable.firstMatch folder module patterns = mapped? folder entry.1 module entry.2 := by
  obtain ⟨before, after, rfl, decides, others⟩ := h
  induction before with
  | nil => exact firstMatch_of_decides decides after
  | cons head before ih =>
    obtain ⟨first, others⟩ := List.forall_mem_cons.mp others
    rw [List.cons_append, firstMatch_skip first, ih others]

/-- Some order of the table has the entry in front of all others. -/
theorem exists_order_first (mem : entry ∈ patterns) (decides : Decides module entry) :
    ∃ order, order.Perm patterns ∧ First module order entry := by
  obtain ⟨before, after, rfl⟩ := List.append_of_mem mem
  exact ⟨entry :: (before ++ after), List.perm_middle.symm, [], before ++ after, rfl, decides, nofun⟩

/-! ### The closest one -/

/-- One pattern is closer than another: a whole name than a beginning, and a longer beginning than a
shorter one. -/
def Closer (pattern other : String) : Prop :=
  match wildcard? pattern, wildcard? other with
  | none, some _ => True
  | some start, some start' => start'.length < start.length
  | _, none => False

/-- The entry decides, and its pattern is closer than those of all others that do. -/
structure Closest (module : String) (patterns : Fields) (entry : String × Value) : Prop where
  mem : entry ∈ patterns
  decides : Decides module entry
  closer : ∀ other ∈ patterns, Decides module other → other ≠ entry → Closer entry.1 other.1

theorem eq_of_wildcard? {pattern start : String} (h : wildcard? pattern = some start) :
    pattern = start ++ "*" := by
  unfold wildcard? at h
  split at h
  · rename_i ends
    obtain ⟨front, written⟩ := List.isSuffixOf_iff_suffix.mp ends
    rw [← Option.some.inj h, ← String.toList_inj, ← written]
    simp
  · cases h

theorem Closer.trans {a b c : String} (h : Closer a b) (h' : Closer b c) : Closer a c := by
  unfold Closer at h h' ⊢
  cases kind : wildcard? a <;> cases kind' : wildcard? b <;> cases kind'' : wildcard? c <;>
    simp_all
  omega

theorem Closer.asymm {a b : String} (h : Closer a b) : ¬ Closer b a := by
  unfold Closer at h ⊢
  cases kind : wildcard? a <;> cases kind' : wildcard? b <;> simp_all
  omega

/-- Of two patterns that match a module, one is closer. -/
theorem closer_or_closer {a b : String} (fits : Matches a module) (fits' : Matches b module)
    (ne : a ≠ b) : Closer a b ∨ Closer b a := by
  unfold Matches at fits fits'
  unfold Closer
  cases kind : wildcard? a with
  | none =>
    rw [kind] at fits
    cases kind' : wildcard? b with
    | none =>
      rw [kind'] at fits'
      exact absurd (fits.trans fits'.symm) ne
    | some start' => exact .inl trivial
  | some start =>
    rw [kind] at fits
    cases kind' : wildcard? b with
    | none => exact .inr trivial
    | some start' =>
      rw [kind'] at fits'
      obtain ⟨rest, begins⟩ := fits
      obtain ⟨rest', begins'⟩ := fits'
      rcases Nat.lt_trichotomy start.length start'.length with less | same | less
      · exact .inr less
      -- Two beginnings of one length are the same, and with the star the same pattern.
      · have starts : start.toList ++ rest.toList = start'.toList ++ rest'.toList := by
          rw [← String.toList_append, ← begins, begins', String.toList_append]
        have eq : start = start' := String.toList_inj.mp
          (List.append_inj_left starts (by simpa [String.length_toList] using same))
        rw [eq_of_wildcard? kind, eq_of_wildcard? kind', eq] at ne
        exact absurd rfl ne
      · exact .inl less

/-- If a pattern decides, one of those that do is the closest. -/
theorem exists_closest (names : (patterns.map (·.1)).Nodup) (mem : entry ∈ patterns)
    (decides : Decides module entry) : ∃ closest, Closest module patterns closest := by
  induction patterns generalizing entry with
  | nil => cases mem
  | cons head rest ih =>
    rw [List.map_cons, List.nodup_cons] at names
    by_cases later : ∃ other ∈ rest, Decides module other
    · obtain ⟨other, mem, decides⟩ := later
      obtain ⟨closest, inside, decides, closer⟩ := ih names.2 mem decides
      have ne : head.1 ≠ closest.1 := fun same => names.1 (same ▸ List.mem_map_of_mem inside)
      by_cases here : Decides module head
      · rcases closer_or_closer here.fits decides.fits ne with less | less
        · refine ⟨head, List.mem_cons_self, here, fun other mem decides other_ne => ?_⟩
          have mem := (List.mem_cons.mp mem).resolve_left other_ne
          by_cases same : other = closest
          · exact same ▸ less
          · exact less.trans (closer other mem decides same)
        · refine ⟨closest, List.mem_cons_of_mem _ inside, decides, fun other mem this other_ne => ?_⟩
          rcases List.mem_cons.mp mem with rfl | mem
          · exact less
          · exact closer other mem this other_ne
      · refine ⟨closest, List.mem_cons_of_mem _ inside, decides, fun other mem this other_ne => ?_⟩
        rcases List.mem_cons.mp mem with rfl | mem
        · exact absurd this here
        · exact closer other mem this other_ne
    · have only : ∀ other ∈ head :: rest, Decides module other → other = head := by
        intro other mem this
        rcases List.mem_cons.mp mem with eq | mem
        · exact eq
        · exact absurd ⟨other, mem, this⟩ later
      obtain rfl := only entry mem decides
      exact ⟨entry, mem, decides, fun other mem this ne => absurd (only other mem this) ne⟩

/-! ### The pattern that decides -/

/-- The closer of two patterns that decide comes first. -/
def CloserFirst (module : String) (patterns : Fields) : Prop :=
  patterns.Pairwise fun a b => Decides module a → Decides module b → Closer a.1 b.1

theorem First.eq_closest (h : First module patterns entry) (sorted : CloserFirst module patterns)
    (closest : Closest module patterns other) : entry = other := by
  by_contra ne
  obtain ⟨before, after, rfl, decides, others⟩ := h
  have later : other ∈ after := by
    rcases List.mem_append.mp closest.mem with mem | mem
    · exact absurd closest.decides (others other mem)
    · exact (List.mem_cons.mp mem).resolve_left (Ne.symm ne)
  have closer : Closer entry.1 other.1 :=
    List.rel_of_pairwise_cons (List.pairwise_append.mp sorted).2.1 later decides closest.decides
  exact closer.asymm (closest.closer entry (by simp) decides ne)

/-- The closest pattern gives the path in every order of the table if and only if all patterns that
decide lead to the same path. -/
theorem firstMatch_of_every_order (h : Closest module patterns entry) :
    (∀ order : Fields, order.Perm patterns →
        AliasTable.firstMatch folder module order = mapped? folder entry.1 module entry.2) ↔
      ∀ other ∈ patterns, Decides module other →
        mapped? folder other.1 module other.2 = mapped? folder entry.1 module entry.2 := by
  constructor
  · intro every other mem decides
    obtain ⟨order, perm, isFirst⟩ := exists_order_first mem decides
    rw [← firstMatch_of_first isFirst, every order perm]
  · intro agree order perm
    rcases none_or_first module order with none | ⟨first, isFirst⟩
    · exact absurd h.decides (none entry (perm.mem_iff.mpr h.mem))
    · obtain ⟨_, _, _, decides, _⟩ := id isFirst
      rw [firstMatch_of_first isFirst]
      exact agree first (perm.mem_iff.mp isFirst.mem) decides

theorem namedOnce_options {document : Value} (named : Json.NamedOnce document) (name : String) :
    Json.NamedOnce (((document.field? name).filter Value.isTruthy).getD (.table [])) := by
  cases found : (document.field? name).filter Value.isTruthy with
  | none => exact .table nofun List.nodup_nil
  | some v =>
    have field := (Option.filter_eq_some_iff.mp found).1
    cases document with
    | table fields => exact named.get? field
    | _ => cases field

/-- The patterns of a table are all different. -/
theorem nodup_patterns {table : AliasTable} (read : AliasTable.read d root = .ok table) :
    (table.patterns.map (·.1)).Nodup := by
  unfold AliasTable.read at read
  split at read
  · cases read
    exact List.nodup_nil
  · rename_i document found
    obtain ⟨text, -, parsed⟩ := Option.bind_eq_some_iff.mp found
    have named := namedOnce_options (Json.namedOnce_of_read? parsed) "compilerOptions"
    unfold AliasTable.ofValue at read
    dsimp only at read
    generalize ((document.field? "compilerOptions").filter Value.isTruthy).getD (.table []) = options
      at read named
    split at read
    · rename_i fields
      split at read
      case h_3 => cases read
      -- Whatever the folder is, the patterns are the same.
      all_goals
        split at read
        · rename_i patterns paths
          cases read
          exact (named.get? paths).nodup
        · cases read
          exact List.nodup_nil
    · cases read

/-- A project whose table cannot be read gives no module a path. Else, a module has no path if no
pattern decides about it, and has the path of the first pattern that does. This is the closest one
where closer patterns come first. In every order of the table the path is that of the closest
pattern if and only if all that decide lead to the same path. -/
theorem aliasPath?_closest (d : Disk) (root module : String) :
    (∃ fault, AliasTable.read d root = .error fault ∧ aliasPath? d root module = .error fault) ∨
      ∃ table, AliasTable.read d root = .ok table ∧
        ((aliasPath? d root module = .ok none ∧
            ∀ entry ∈ table.patterns, ¬ Decides module entry) ∨
          ∃ first closest, First module table.patterns first ∧
            Closest module table.patterns closest ∧
            aliasPath? d root module = mapped? table.folder first.1 module first.2 ∧
            (CloserFirst module table.patterns → first = closest) ∧
            ((∀ order : Fields, order.Perm table.patterns →
                AliasTable.firstMatch table.folder module order =
                  mapped? table.folder closest.1 module closest.2) ↔
              ∀ entry ∈ table.patterns, Decides module entry →
                mapped? table.folder entry.1 module entry.2 =
                  mapped? table.folder closest.1 module closest.2)) := by
  cases read : AliasTable.read d root with
  | error fault => exact .inl ⟨fault, rfl, by rw [aliasPath?, read]; rfl⟩
  | ok table =>
    have path : aliasPath? d root module =
        AliasTable.firstMatch table.folder module table.patterns := by
      rw [aliasPath?, read]
      rfl
    rw [path]
    refine .inr ⟨table, rfl, ?_⟩
    rcases none_or_first module table.patterns with none | ⟨first, isFirst⟩
    · exact .inl ⟨firstMatch_of_none none, none⟩
    · obtain ⟨_, _, _, decides, _⟩ := id isFirst
      obtain ⟨closest, isClosest⟩ := exists_closest (nodup_patterns read) isFirst.mem decides
      exact .inr ⟨first, closest, isFirst, isClosest, firstMatch_of_first isFirst,
        fun sorted => isFirst.eq_closest sorted isClosest, firstMatch_of_every_order isClosest⟩

/-- Where the pattern for more modules comes first, the other one is of no use. -/
example : AliasTable.firstMatch "/" "@/lib/a.png"
    [("@/*", .list [.str "./src/*"]), ("@/lib/*", .list [.str "./lib/*"])] =
      .ok (some "/src/lib/a.png") := by
  rfl

end JsxAudit.Asset
