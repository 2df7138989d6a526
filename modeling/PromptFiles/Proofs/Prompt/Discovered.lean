import Mathlib.Data.List.Sort
import PromptFiles.Proofs.FileTree.Walked
import PromptFiles.Proofs.FirstError
import PromptFiles.Prompt.Collection

/-!
# Discovered files

Discovering files fails where the walk comes across a directory that it cannot open, and nowhere
else: `exists_discover_iff` and `discover_eq_error`. Otherwise the files are those below the
directory that the pattern takes, each once, in the strict order of their paths. Only one list is
like that, so it does not depend on the order in which a walk comes across the entries:
`discover_exact`.
-/

namespace PromptFiles

open FileTree (Entry)

/-- A pattern with a slash in it is matched against the whole path below the directory, any other
against the name of the file. -/
inductive Glob.Pattern.Takes (p : Pattern) : List String → Prop where
  | path : '/' ∈ p.text.toList → p.accepts ("/".intercalate names) = true → Takes p names
  | name : '/' ∉ p.text.toList → p.accepts name = true → Takes p (above ++ [name])

variable {t t' : FileTree} {root : String} {place names : List String} {pattern : Glob.Pattern}
  {entry : Entry} {recursive : Bool} {walked walked' : List (List String × Entry)}

-- ---------------------------------------------------------------------------
-- Found names
-- ---------------------------------------------------------------------------

theorem acceptsNames_iff (hne : names ≠ []) :
    pattern.acceptsNames names = true ↔ pattern.Takes names := by
  have hrelative : pattern.isRelative = true ↔ '/' ∈ pattern.text.toList := by
    rw [Glob.Pattern.isRelative, List.contains_iff_mem]
  unfold Glob.Pattern.acceptsNames
  split
  · rename_i hslash
    constructor
    · exact .path (hrelative.mp hslash)
    · rintro (⟨-, haccepts⟩ | ⟨hno, -⟩)
      · exact haccepts
      · exact absurd (hrelative.mp hslash) hno
  · rename_i hno
    rw [hrelative] at hno
    constructor
    · intro haccepts
      rw [List.getLastD_eq_getLast?, List.getLast?_eq_some_getLast hne] at haccepts
      have htakes : pattern.Takes (names.dropLast ++ [names.getLast hne]) := .name hno haccepts
      rwa [List.dropLast_concat_getLast] at htakes
    · rintro (⟨hslash, -⟩ | ⟨-, haccepts⟩)
      · exact absurd hslash hno
      · simpa using haccepts

def foundIn (pattern : Glob.Pattern) (walked : List (List String × Entry)) : List (List String) :=
  let found := walked.filter fun (names, entry) => entry.isFile && pattern.acceptsNames names
  (found.map Prod.fst).mergeSort

theorem mem_foundIn (hwalk : t.IsWalk place recursive walked) :
    names ∈ foundIn pattern walked ↔ (∃ bytes, t.Below place names (.file bytes)) ∧
      (recursive = true ∨ names.length = 1) ∧ pattern.Takes names := by
  rw [foundIn, (List.mergeSort_perm _ _).mem_iff, List.mem_map]
  constructor
  · rintro ⟨⟨names, entry⟩, hfound, rfl⟩
    rw [List.mem_filter, Bool.and_eq_true] at hfound
    obtain ⟨hwalked, hfile, haccepts⟩ := hfound
    obtain ⟨hbelow, hdepth⟩ := (hwalk.mem_iff _ _).mp hwalked
    rw [acceptsNames_iff (FileTree.below_iff.mp hbelow).1] at haccepts
    cases entry with
    | file bytes => exact ⟨⟨bytes, hbelow⟩, hdepth, haccepts⟩
    | directory | link => cases hfile
  · rintro ⟨⟨bytes, hbelow⟩, hdepth, htakes⟩
    have haccepts := (acceptsNames_iff (FileTree.below_iff.mp hbelow).1).mpr htakes
    have hwalked := (hwalk.mem_iff _ _).mpr ⟨hbelow, hdepth⟩
    exact ⟨_, List.mem_filter.mpr ⟨hwalked, by simp [Entry.isFile, haccepts]⟩, rfl⟩

theorem sortedLT_foundIn (hwalk : t.IsWalk place recursive walked) (pattern : Glob.Pattern) :
    (foundIn pattern walked).SortedLT := by
  have hnodup := hwalk.once.sublist ((List.filter_sublist (p := fun (names, entry) =>
    entry.isFile && pattern.acceptsNames names)).map Prod.fst)
  have hsorted : (foundIn pattern walked).SortedLE := List.sortedLE_mergeSort
  exact hsorted.sortedLT_of_nodup ((List.mergeSort_perm _ _).nodup_iff.mpr hnodup)

theorem foundIn_congr (hwalk : t.IsWalk place recursive walked)
    (hwalk' : t.IsWalk place recursive walked') (pattern : Glob.Pattern) :
    foundIn pattern walked = foundIn pattern walked' := by
  refine (sortedLT_foundIn hwalk pattern).eq_of_mem_iff (sortedLT_foundIn hwalk' pattern)
    fun names => ?_
  rw [mem_foundIn hwalk, mem_foundIn hwalk']

theorem foundIn_flat (hflat : t.IsWalk place false walked) (hdeep : t.IsWalk place true walked')
    (pattern : Glob.Pattern) :
    foundIn pattern walked = (foundIn pattern walked').filter (·.length = 1) := by
  refine (sortedLT_foundIn hflat pattern).eq_of_mem_iff
    ((sortedLT_foundIn hdeep pattern).pairwise.filter _).sortedLT fun names => ?_
  rw [List.mem_filter, mem_foundIn hflat, mem_foundIn hdeep]
  grind

-- ---------------------------------------------------------------------------
-- Listed paths
-- ---------------------------------------------------------------------------

section

variable (hnamed : t.Named) (hroot : root ≠ "") (hwalk : t.IsWalk place recursive walked)
include hnamed hwalk

theorem isEntryName_of_mem_foundIn (h : names ∈ foundIn pattern walked) :
    ∀ name ∈ names, Path.IsEntryName name := by
  obtain ⟨⟨bytes, hbelow⟩, -⟩ := (mem_foundIn hwalk).mp h
  exact hbelow.isEntryName hnamed

include hroot

/-- Sorting paths below a directory is sorting their names. -/
theorem listed_eq (pattern : Glob.Pattern) :
    listed root pattern walked = (foundIn pattern walked).map (Path.below root) := by
  refine (List.map_mergeSort fun as has bs hbs => ?_).symm
  rw [← (List.mergeSort_perm _ _).mem_iff] at has hbs
  rw [Bool.eq_iff_iff, decide_eq_true_iff, Bool.not_eq_true', ← Bool.not_eq_true,
    Path.less_below_iff hroot (isEntryName_of_mem_foundIn hnamed hwalk hbs)
      (isEntryName_of_mem_foundIn hnamed hwalk has), not_lt]

theorem less_foundIn (pattern : Glob.Pattern) : ((foundIn pattern walked).map
    (Path.below root)).Pairwise (Path.less · · = true) := by
  rw [List.pairwise_map]
  refine (sortedLT_foundIn hwalk pattern).pairwise.imp_of_mem fun {as bs} has hbs hlt => ?_
  exact (Path.less_below_iff hroot (isEntryName_of_mem_foundIn hnamed hwalk has)
    (isEntryName_of_mem_foundIn hnamed hwalk hbs)).mpr hlt

end

-- ---------------------------------------------------------------------------
-- Walks
-- ---------------------------------------------------------------------------

theorem root_ne_empty {r : FileTree.Place} (h : t.resolve true root = .ok r) : root ≠ "" := by
  rintro rfl
  cases h

theorem pathLimit_lt_walkDepth : FileTree.pathLimit < walkDepth true := by
  decide

theorem length_lt_of_isOk (hnamed : t.Named) (hroot : root ≠ "")
    (hbelow : t.Below place names .directory)
    (h : (t.openDirectory (Path.below root names)).isOk = true) :
    names.length < FileTree.pathLimit :=
  (Path.length_lt_below hroot (hbelow.isEntryName hnamed)).trans_le
    (FileTree.utf8ByteSize_le_of_isOk h)

theorem recursive_of_length_lt (hbelow : t.Below place names entry)
    (hdepth : names.length < walkDepth recursive) : recursive = true := by
  cases recursive with
  | true => rfl
  | false =>
    have hpos := List.length_pos_iff.mpr (FileTree.below_iff.mp hbelow).1
    exact absurd hdepth (Nat.not_lt.mpr hpos)

section

variable (hroot : t.resolve true root = .ok (.existing place .directory))
include hroot

theorem discover_directory (pattern : Glob.Pattern) (recursive : Bool) :
    discover t root pattern recursive =
      ((t.walkBelow root [] (walkDepth recursive)).mapM
        (Except.mapError fun (path, fault) => .walk root path fault)).map
          (listed root pattern) := by
  rw [discover, hroot]
  rfl

theorem discover_eq (hwalked : t.walkBelow root [] (walkDepth recursive) = walked.map .ok)
    (pattern : Glob.Pattern) :
    discover t root pattern recursive = .ok (listed root pattern walked) := by
  rw [discover_directory hroot, hwalked, mapM_eq_ok_iff.mpr]
  · rfl
  · rw [List.map_map]
    rfl

theorem isOk_of_discover (h : discover t root pattern recursive = .ok files) :
    ∀ item ∈ t.walkBelow root [] (walkDepth recursive), item.isOk = true := by
  rw [discover_directory hroot, map_eq_ok_iff] at h
  obtain ⟨walked, hwalked, -⟩ := h
  rw [mapM_eq_ok_iff] at hwalked
  intro item hitem
  obtain ⟨found, -, hfound⟩ := List.mem_map.mp (hwalked ▸ List.mem_map_of_mem hitem)
  cases item with
  | ok _ => rfl
  | error _ => cases hfound

theorem error_mem_of_discover (h : discover t root pattern recursive = .error e) :
    ∃ path fault, .error (path, fault) ∈ t.walkBelow root [] (walkDepth recursive) ∧
      e = .walk root path fault := by
  rw [discover_directory hroot, map_eq_error_iff] at h
  obtain ⟨before, item, after, hwalk, -, hitem⟩ := mapM_eq_error h
  cases item with
  | ok _ => cases hitem
  | error fault =>
    cases hitem
    exact ⟨fault.1, fault.2, by simp [hwalk], rfl⟩

end

section

variable (hnamed : t.Named) (hroot : t.resolve true root = .ok (.existing place .directory))
include hnamed hroot

theorem length_le_walkDepth_iff (h : recursive = true → t.Opens root place)
    (hbelow : t.Below place names entry) :
    names.length ≤ walkDepth recursive ↔ recursive = true ∨ names.length = 1 := by
  have hpos := List.length_pos_iff.mpr (FileTree.below_iff.mp hbelow).1
  cases recursive with
  | false =>
    have hflat : walkDepth false = 1 := rfl
    simp only [hflat, Bool.false_eq_true, false_or]
    omega
  | true =>
    have hdeep := pathLimit_lt_walkDepth
    simp only [true_or, iff_true]
    by_cases hone : names.length = 1
    · omega
    · have hdirectory := hbelow.take (n := names.length - 1) (by omega) (by omega)
      have hlength := length_lt_of_isOk hnamed (root_ne_empty hroot) hdirectory
        (h rfl _ hdirectory)
      rw [List.length_take] at hlength
      omega

theorem exists_isWalk (h : recursive = true → t.Opens root place) :
    ∃ walked : List (List String × Entry),
      t.walkBelow root [] (walkDepth recursive) = walked.map .ok ∧
        t.IsWalk place recursive walked := by
  have hopen : t.openDirectory (Path.below root []) = .ok place :=
    FileTree.openDirectory_eq_ok_iff.mpr hroot
  have hopens (names : List String) (hbelow : t.Below place names .directory)
      (hdepth : names.length < walkDepth recursive) :
      (t.openDirectory (Path.below root ([] ++ names))).isOk = true :=
    h (recursive_of_length_lt hbelow hdepth) names hbelow
  obtain ⟨walked, hwalked⟩ : ∃ walked : List (List String × Entry),
      t.walkBelow root [] (walkDepth recursive) = walked.map .ok := by
    refine exists_map_ok_iff.mpr fun item hitem => ?_
    cases item with
    | ok _ => rfl
    | error fault =>
      obtain ⟨names, hbelow, hdepth, hpath, hfault⟩ :=
        FileTree.error_mem_walkBelow hnamed hopen hitem
      have hok := hopens names hbelow hdepth
      rw [← hpath, hfault] at hok
      cases hok
  refine ⟨walked, hwalked, ?_, fun names entry => ?_⟩
  · have honce := FileTree.once_walkBelow t root [] (walkDepth recursive)
    rw [hwalked, List.pairwise_map] at honce
    exact List.pairwise_map.mpr (honce.imp fun {a b} hab hsame =>
      hab a.1 a.2 b.2 rfl (by rw [hsame]))
  · have hmem : (names, entry) ∈ walked ↔
        .ok (names, entry) ∈ t.walkBelow root [] (walkDepth recursive) := by
      rw [hwalked, List.mem_map_of_injective fun a b hab => Except.ok.inj hab]
    rw [hmem, FileTree.mem_walkBelow hnamed hopen hopens]
    constructor
    · rintro ⟨more, rfl, hbelow, hdepth⟩
      exact ⟨hbelow, (length_le_walkDepth_iff hnamed hroot h hbelow).mp hdepth⟩
    · rintro ⟨hbelow, hdepth⟩
      exact ⟨names, rfl, hbelow, (length_le_walkDepth_iff hnamed hroot h hbelow).mpr hdepth⟩

/-- Files are discovered unless there is a directory below that the walk goes into but cannot
open. -/
theorem exists_discover_iff : (∃ files, discover t root pattern recursive = .ok files) ↔
    (recursive = true → t.Opens root place) := by
  constructor
  · rintro ⟨files, hfiles⟩ rfl names hbelow
    have hwalk := isOk_of_discover hroot hfiles
    have hopens {names : List String} (hbelow : t.Below place names .directory)
        (hdepth : names.length < walkDepth true) :
        (t.openDirectory (Path.below root names)).isOk = true := by
      have hopen : t.openDirectory (Path.below root []) = .ok place :=
        FileTree.openDirectory_eq_ok_iff.mpr hroot
      have hok := FileTree.isOk_openDirectory hnamed hopen hwalk hbelow hdepth
      rwa [List.nil_append] at hok
    have hpath := pathLimit_lt_walkDepth
    by_cases hdepth : names.length ≤ FileTree.pathLimit
    · exact hopens hbelow (by omega)
    · -- It would be below a directory that is too deep to be opened.
      have hlength : (names.take FileTree.pathLimit).length = FileTree.pathLimit := by
        rw [List.length_take]
        omega
      have hdirectory := hbelow.take (by decide) (Nat.not_le.mp hdepth)
      have hless := length_lt_of_isOk hnamed (root_ne_empty hroot) hdirectory
        (hopens hdirectory (by omega))
      omega
  · intro h
    obtain ⟨walked, hwalked, -⟩ := exists_isWalk hnamed hroot h
    exact ⟨_, discover_eq hroot hwalked pattern⟩

/-- A walk fails with the path of the directory that cannot be opened. -/
theorem discover_eq_error (h : discover t root pattern recursive = .error e) :
    recursive = true ∧ ∃ names fault, t.Below place names .directory ∧
      t.openDirectory (Path.below root names) = .error fault ∧
      e = .walk root (Path.below root names) fault := by
  obtain ⟨path, fault, hmem, rfl⟩ := error_mem_of_discover hroot h
  have hopen : t.openDirectory (Path.below root []) = .ok place :=
    FileTree.openDirectory_eq_ok_iff.mpr hroot
  obtain ⟨names, hbelow, hdepth, rfl, hfault⟩ := FileTree.error_mem_walkBelow hnamed hopen hmem
  exact ⟨recursive_of_length_lt hbelow hdepth, names, fault, hbelow, hfault, rfl⟩

theorem discover_of_too_long (hbelow : t.Below place names .directory)
    (hlong : FileTree.pathLimit < (Path.below root names).utf8ByteSize)
    (pattern : Glob.Pattern) :
    ∃ path fault, discover t root pattern true = .error (.walk root path fault) := by
  cases h : discover t root pattern true with
  | ok files =>
    have hopens := (exists_discover_iff hnamed hroot).mp ⟨files, h⟩ rfl
    have hle := FileTree.utf8ByteSize_le_of_isOk (hopens names hbelow)
    omega
  | error e =>
    obtain ⟨-, names, fault, -, -, rfl⟩ := discover_eq_error hnamed hroot h
    exact ⟨_, fault, rfl⟩

end

/-- Of the walk it is assumed that it can open every directory below, and only where it descends;
files are discovered if and only if it can. They are then exactly those below the directory that the
pattern takes, each once and in strict order, whatever the order in which they are come across.
Without descending they are those of them that are in the directory itself. -/
theorem discover_exact (hnamed : t.Named)
    (hroot : t.resolve true root = .ok (.existing place .directory)) (pattern : Glob.Pattern) :
    (∀ recursive, (∃ files, discover t root pattern recursive = .ok files) ↔
      (recursive = true → t.Opens root place)) ∧
    ∃ found : Bool → List (List String),
      (∀ recursive, (recursive = true → t.Opens root place) →
        discover t root pattern recursive = .ok ((found recursive).map (Path.below root)) ∧
        (∀ names, names ∈ found recursive ↔ (∃ bytes, t.Below place names (.file bytes)) ∧
          (recursive = true ∨ names.length = 1) ∧ pattern.Takes names) ∧
        (found recursive).Nodup ∧
        ((found recursive).map (Path.below root)).Pairwise (Path.less · · = true) ∧
        (∀ walked, t.IsWalk place recursive walked →
          discover t root pattern recursive = .ok (listed root pattern walked)) ∧
        ∀ t' : FileTree, t'.current = t.current → t.entries.Perm t'.entries →
          discover t' root pattern recursive = discover t root pattern recursive) ∧
      (t.Opens root place → found false = (found true).filter (·.length = 1)) := by
  have hempty := root_ne_empty hroot
  let met (recursive : Bool) : List (List String × Entry) :=
    (t.walkBelow root [] (walkDepth recursive)).filterMap Except.toOption
  have hmet {recursive : Bool} (h : recursive = true → t.Opens root place) :
      t.walkBelow root [] (walkDepth recursive) = (met recursive).map .ok ∧
        t.IsWalk place recursive (met recursive) := by
    obtain ⟨walked, hwalked, hwalk⟩ := exists_isWalk hnamed hroot h
    obtain rfl : met recursive = walked := by
      simp [met, hwalked, List.filterMap_map, Function.comp_def, Except.toOption]
    exact ⟨hwalked, hwalk⟩
  refine ⟨fun recursive => exists_discover_iff hnamed hroot,
    fun recursive => foundIn pattern (met recursive), fun recursive h => ?_, fun hopens => ?_⟩
  · obtain ⟨hwalked, hwalk⟩ := hmet h
    have hdiscover := discover_eq hroot hwalked pattern
    refine ⟨?_, fun names => mem_foundIn hwalk, (sortedLT_foundIn hwalk pattern).nodup,
      less_foundIn hnamed hempty hwalk pattern, fun walked hany => ?_,
      fun t' hcurrent hperm => ?_⟩
    · rw [hdiscover, listed_eq hnamed hempty hwalk]
    · rw [hdiscover, listed_eq hnamed hempty hwalk, listed_eq hnamed hempty hany,
        foundIn_congr hwalk hany]
    · have hroot' := (FileTree.resolve_perm hcurrent hperm true root).trans hroot
      obtain ⟨walked', hwalked', hwalk'⟩ := exists_isWalk (hnamed.perm hperm) hroot' fun hrecursive =>
        (h hrecursive).perm hcurrent hperm
      have hany := hwalk'.perm hperm
      rw [hdiscover, discover_eq hroot' hwalked', listed_eq hnamed hempty hwalk,
        listed_eq hnamed hempty hany, foundIn_congr hwalk hany]
  · exact foundIn_flat (hmet (by simp)).2 (hmet fun _ => hopens).2 pattern

/-- A directory with a directory, a link and a file of another kind in it. Character by character
`d/a-b.txt` would come first, component by component it does not. -/
theorem discover_exact_nested :
    let x : Entry := .file "X".toUTF8
    let t := ((((((FileTree.empty ["w"]).put ["w", "d"] .directory).put ["w", "d", "a"]
      .directory).put ["w", "d", "a", "x.txt"] x).put ["w", "d", "a-b.txt"] x).put
      ["w", "d", "z.txt"] (.link "a-b.txt")).put ["w", "d", "c.md"] x
    let pattern : Glob.Pattern :=
      ⟨"*.txt", [.anySequence, .char '.', .char 't', .char 'x', .char 't']⟩
    let walked := [(["z.txt"], .link "a-b.txt"), (["a-b.txt"], x), (["c.md"], x),
      (["a"], .directory), (["a", "x.txt"], x)]
    Glob.Pattern.parse "*.txt" = .ok pattern ∧ t.Named ∧
      t.resolve true "d" = .ok (.existing ["w", "d"] .directory) ∧
      t.Opens "d" ["w", "d"] ∧ t.IsWalk ["w", "d"] true walked ∧
      discover t "d" pattern true = .ok ["d/a/x.txt", "d/a-b.txt"] ∧
      discover t "d" pattern false = .ok ["d/a-b.txt"] := by
  intro x t pattern walked
  have hnamed : t.Named := by
    iterate 6 refine FileTree.named_put ?_ (by simp) (by decide +kernel) _
    exact FileTree.named_empty (by decide +kernel)
  have hw : t.lookup ["w"] = some .directory := rfl
  have hd : t.lookup ["w", "d"] = some .directory := rfl
  have ha : t.lookup ["w", "d", "a"] = some .directory := rfl
  have hpieces : Path.pieces "d" = ["d"] := by decide +kernel
  have hroot : t.resolve true "d" = .ok (.existing ["w", "d"] .directory) := by
    rw [FileTree.resolve_relative (by decide +kernel) (by decide +kernel), hpieces]
    refine (FileTree.walk_entry hw (by decide +kernel) hd (by simp)).trans ?_
    rw [List.cons_append, List.nil_append, FileTree.walk, hd]
  have hentries : t.entries = [(["w", "d", "c.md"], x), (["w", "d", "z.txt"], .link "a-b.txt"),
      (["w", "d", "a-b.txt"], x), (["w", "d", "a", "x.txt"], x), (["w", "d", "a"], .directory),
      (["w", "d"], .directory), (["w"], .directory)] := rfl
  have hopens : t.Opens "d" ["w", "d"] := by
    intro names hbelow
    have hentry := (FileTree.lookup_eq_some_iff (by simp)).mp hbelow.lookup
    have hne := (FileTree.below_iff.mp hbelow).1
    simp only [hentries, List.mem_cons, List.not_mem_nil, or_false, Prod.mk.injEq,
      List.cons_append, List.nil_append, List.cons.injEq, true_and] at hentry
    obtain rfl : names = ["a"] := by grind
    have hpath : Path.below "d" ["a"] = "d/a" := by decide +kernel
    have hnames : Path.pieces "d/a" = ["d", "a"] := by decide +kernel
    have hresolve : t.resolve true "d/a" = .ok (.existing ["w", "d", "a"] .directory) := by
      rw [FileTree.resolve_relative (by decide +kernel) (by decide +kernel), hnames]
      refine (FileTree.walk_entry hw (by decide +kernel) hd (by simp)).trans ?_
      refine (FileTree.walk_entry hd (by decide +kernel) ha (by simp)).trans ?_
      rw [List.cons_append, List.cons_append, List.nil_append, FileTree.walk, ha]
    rw [hpath, FileTree.openDirectory_eq_ok_iff.mpr hresolve]
    rfl
  have hwalk : t.IsWalk ["w", "d"] true walked := by
    refine ⟨by decide, fun names entry => ⟨fun h => ⟨?_, .inl rfl⟩, fun h => ?_⟩⟩
    · simp only [walked, List.mem_cons, List.not_mem_nil, or_false, Prod.mk.injEq] at h
      rcases h with ⟨rfl, rfl⟩ | ⟨rfl, rfl⟩ | ⟨rfl, rfl⟩ | ⟨rfl, rfl⟩ | ⟨rfl, rfl⟩
      · exact .child hd rfl
      · exact .child hd rfl
      · exact .child hd rfl
      · exact .child hd rfl
      · exact .deeper hd (.child ha rfl)
    · have hentry := (FileTree.lookup_eq_some_iff (by simp)).mp h.1.lookup
      have hne := (FileTree.below_iff.mp h.1).1
      simp only [hentries, List.mem_cons, List.not_mem_nil, or_false, Prod.mk.injEq,
        List.cons_append, List.nil_append, List.cons.injEq, true_and] at hentry
      simp only [walked, List.mem_cons, Prod.mk.injEq]
      grind
  obtain ⟨-, found, hfound, -⟩ := discover_exact hnamed hroot pattern
  obtain ⟨-, -, -, -, hdeep, -⟩ := hfound true fun _ => hopens
  obtain ⟨-, -, -, -, hflat, -⟩ := hfound false (by simp)
  have hmd : pattern.acceptsNames ["c.md"] = false := by decide +kernel
  have hab : pattern.acceptsNames ["a-b.txt"] = true := by decide +kernel
  have hx : pattern.acceptsNames ["a", "x.txt"] = true := by decide +kernel
  have hbelow : Path.below "d" ["a", "x.txt"] = "d/a/x.txt" := by decide +kernel
  have hbelow' : Path.below "d" ["a-b.txt"] = "d/a-b.txt" := by decide +kernel
  have hless : Path.less "d/a/x.txt" "d/a-b.txt" = true := by decide +kernel
  refine ⟨by decide +kernel, hnamed, hroot, hopens, hwalk, ?_, ?_⟩
  · rw [hdeep walked hwalk]
    simp [listed, walked, Entry.isFile, x, hmd, hab, hx, hbelow, hbelow', List.mergeSort, hless]
  · rw [hflat _ hwalk.flat]
    simp [listed, walked, Entry.isFile, x, hmd, hab, hbelow']

end PromptFiles
