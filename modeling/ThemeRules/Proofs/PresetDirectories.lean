import Mathlib
import ThemeRules.Proofs.Placement
import ThemeRules.Proofs.PresetLookup

/-!
# ThemeRules.Proofs.PresetDirectories

The directory of a preset and the pattern for all theme files below it. The directory goes by the end of
a path, the pattern by matching what is behind the directory, byte by byte, and they find the same files
(`themeFiles_eq_found`). Directories and a run of other bytes are together any text
(`leaves_leading_run`), so the pattern matches what has one of its endings (`isMatch_themeTokens`). An
ending starts with an ASCII character, and in front of that every text can be cut
(`exists_encode_split`).
-/

namespace ThemeRules

/-! ## Texts with an ending -/

namespace Glob

theorem encode_injective : Function.Injective encode := by
  intro first second h
  have hnil : encode first = encode second ++ [] := h.trans (List.append_nil _).symm
  obtain ⟨tail, rfl, htail⟩ := encode_eq_append second hnil
  cases tail with
  | nil => rw [List.append_nil]
  | cons c tail =>
    rw [encode_cons] at htail
    exact absurd (List.append_eq_nil_iff.mp htail.symm).1 String.utf8EncodeChar_ne_nil

/-- Where a character begins, a text can be cut. -/
theorem exists_encode_split {b : UInt8} (hb : b.IsUTF8FirstByte) {after : Bytes} :
    ∀ {text : List Char} {before : Bytes}, encode text = before ++ b :: after →
      ∃ front back, text = front ++ back ∧ encode back = b :: after := by
  intro text
  induction text with
  | nil => intro before h; simp [encode] at h
  | cons c rest ih =>
    intro before h
    rw [encode_cons] at h
    rcases List.append_eq_append_iff.mp h with ⟨more, rfl, hrest⟩ | ⟨more, hc, hmore⟩
    · obtain ⟨front, back, rfl, hback⟩ := ih hrest
      exact ⟨c :: front, back, rfl, hback⟩
    · cases more with
      | nil => exact ⟨[c], rest, rfl, hmore.symm⟩
      | cons d more =>
        obtain ⟨rfl, -⟩ := List.cons.inj hmore
        have hlt : before.length < (String.utf8EncodeChar c).length := by simp [hc]
        have hget : (String.utf8EncodeChar c)[before.length] = b := by simp [hc]
        have hzero := UInt8.isUTF8FirstByte_getElem_utf8EncodeChar.mp (hget ▸ hb)
        obtain rfl := List.length_eq_zero_iff.mp hzero
        exact ⟨[], c :: rest, rfl, by rw [encode_cons, h]; rfl⟩

/-- The bytes of a text end like those of an ending exactly if the text ends so, since no other character
has a first byte among its further ones. -/
theorem encode_suffix_iff {b : UInt8} (hb : b.IsUTF8FirstByte) {ending : List Char} {after : Bytes}
    (hending : encode ending = b :: after) {text : List Char} :
    encode ending <:+ encode text ↔ ending <:+ text := by
  constructor
  · rintro ⟨before, h⟩
    rw [hending] at h
    obtain ⟨front, back, rfl, hback⟩ := exists_encode_split hb h.symm
    rw [← hending] at hback
    exact ⟨front, by rw [encode_injective hback]⟩
  · rintro ⟨front, rfl⟩
    exact ⟨encode front, (encode_append front ending).symm⟩

/-! ## The pattern of theme files -/

theorem suffix_of_mem_afterRun {text rest : Bytes} (h : rest ∈ afterRun text) : rest <:+ text := by
  induction text with
  | nil =>
    rw [afterRun, List.mem_singleton] at h
    exact h ▸ List.suffix_refl _
  | cons b text ih =>
    rw [afterRun, List.mem_cons] at h
    rcases h with rfl | h
    · exact List.suffix_refl _
    · split at h
      · cases h
      · exact (ih h).trans (List.suffix_cons b text)

theorem suffix_of_mem_afterSlashes {text rest : Bytes} (h : rest ∈ afterSlashes text) :
    rest <:+ text := by
  induction text with
  | nil => cases h
  | cons b text ih =>
    rw [afterSlashes] at h
    split at h
    · rcases List.mem_cons.mp h with rfl | h
      · exact List.suffix_cons b _
      · exact (ih h).trans (List.suffix_cons b text)
    · exact (ih h).trans (List.suffix_cons b text)

/-- What is in front of a text are directories and a run of other bytes. -/
theorem exists_leading_run (front text : Bytes) :
    ∃ middle ∈ Token.leading.remainders (front ++ text), text ∈ afterRun middle := by
  induction front with
  | nil =>
    refine ⟨text, List.mem_cons_self, ?_⟩
    cases text <;> exact List.mem_cons_self
  | cons b front ih =>
    obtain ⟨middle, hmiddle, hrun⟩ := ih
    rw [Token.remainders, List.mem_cons] at hmiddle
    rw [Token.remainders, List.cons_append, afterSlashes]
    rcases hmiddle with rfl | hmiddle
    · by_cases hb : b = slash
      · exact ⟨front ++ text, by simp [hb], hrun⟩
      · refine ⟨b :: (front ++ text), List.mem_cons_self, ?_⟩
        rw [afterRun, if_neg hb]
        exact List.mem_cons_of_mem _ hrun
    · refine ⟨middle, List.mem_cons_of_mem _ ?_, hrun⟩
      split
      · exact List.mem_cons_of_mem _ hmiddle
      · exact hmiddle

theorem leaves_leading_run (tokens : List Token) (text rest : Bytes) :
    Leaves (.leading :: .anyRun :: tokens) text rest ↔
      ∃ middle, middle <:+ text ∧ Leaves tokens middle rest := by
  constructor
  · rintro ⟨first, hfirst, middle, hmiddle, hleaves⟩
    have hsuffix : first <:+ text := by
      rw [Token.remainders, List.mem_cons] at hfirst
      rcases hfirst with rfl | hfirst
      · exact List.suffix_refl _
      · exact suffix_of_mem_afterSlashes hfirst
    exact ⟨middle, (suffix_of_mem_afterRun hmiddle).trans hsuffix, hleaves⟩
  · rintro ⟨middle, ⟨front, rfl⟩, hleaves⟩
    obtain ⟨first, hfirst, hrun⟩ := exists_leading_run front middle
    exact ⟨first, hfirst, middle, hrun, hleaves⟩

theorem mem_branchRemainders (branches : List (List Token)) (text rest : Bytes) :
    rest ∈ branchRemainders branches text ↔
      ∃ branch ∈ branches, isVoid branch = false ∧ Leaves branch text rest := by
  induction branches with
  | nil => simp [branchRemainders]
  | cons branch branches ih =>
    rw [branchRemainders, List.mem_append, ih, List.exists_mem_cons_iff]
    refine or_congr ?_ Iff.rfl
    cases isVoid branch with
    | true => simp
    | false => simp [mem_remainders]

/-- A group of texts, none of them empty, leaves what is behind one of them. -/
theorem leaves_texts {texts : List (List Char)} (hne : texts ≠ []) (htexts : [] ∉ texts)
    (text : Bytes) :
    Leaves [.alternatives (texts.map fun t => t.map .literal)] text [] ↔
      ∃ t ∈ texts, text = encode t := by
  have hvoid : ∀ t ∈ texts, isVoid (t.map .literal) = false := by
    intro t ht
    cases t with
    | nil => exact absurd ht htexts
    | cons c t => rfl
  have hall : allVoid (texts.map fun t => t.map .literal) = false := by
    obtain ⟨t, rest, rfl⟩ := List.exists_cons_of_ne_nil hne
    rw [List.map_cons, allVoid, hvoid t List.mem_cons_self, Bool.false_and]
  have hleaves : Leaves [.alternatives (texts.map fun t => t.map .literal)] text [] ↔
      [] ∈ branchRemainders (texts.map fun t => t.map .literal) text := by
    simp [Leaves, Token.remainders, hall]
  rw [hleaves, mem_branchRemainders]
  constructor
  · rintro ⟨branch, hbranch, -, h⟩
    obtain ⟨t, ht, rfl⟩ := List.mem_map.mp hbranch
    rw [leaves_literal, List.append_nil] at h
    exact ⟨t, ht, h⟩
  · rintro ⟨t, ht, rfl⟩
    refine ⟨_, List.mem_map_of_mem ht, hvoid t ht, ?_⟩
    rw [leaves_literal, List.append_nil]

/-- What the endings of theme files are behind the dot. -/
def extensions : List (List Char) := ["yaml".toList, "yml".toList, "json".toList]

/-- Any directories, any name, and one of the endings. -/
def themeTokens : List Token :=
  [.leading, .anyRun, .literal '.', .alternatives (extensions.map fun t => t.map .literal)]

theorem parse_themeGlob : parse "**/*.\x7byaml,yml,json\x7d".toList = .ok themeTokens := by rfl

theorem themeEndings_eq : themeEndings = extensions.map ('.' :: ·) := by rfl

theorem leaves_cons_literal (c : Char) (tokens : List Token) (text rest : Bytes) :
    Leaves (.literal c :: tokens) text rest ↔
      ∃ tail, text = String.utf8EncodeChar c ++ tail ∧ Leaves tokens tail rest := by
  simp only [Leaves, Token.remainders, mem_afterText]

theorem leaves_ending (text : Bytes) :
    Leaves [.literal '.', .alternatives (extensions.map fun t => t.map .literal)] text [] ↔
      ∃ ending ∈ themeEndings, text = encode ending := by
  simp only [leaves_cons_literal, leaves_texts (show extensions ≠ [] by decide)
    (show [] ∉ extensions by decide), themeEndings_eq, List.mem_map]
  constructor
  · rintro ⟨_, rfl, t, ht, rfl⟩
    exact ⟨_, ⟨t, ht, rfl⟩, (encode_cons '.' t).symm⟩
  · rintro ⟨_, ⟨t, ht, rfl⟩, rfl⟩
    exact ⟨_, encode_cons '.' t, t, ht, rfl⟩

theorem isMatch_themeTokens (text : List Char) :
    isMatch themeTokens (encode text) = true ↔ ∃ ending ∈ themeEndings, ending <:+ text := by
  have hdot : UInt8.IsUTF8FirstByte 0x2E := .inl rfl
  have hsuffix : ∀ ending ∈ themeEndings, (encode ending <:+ encode text ↔ ending <:+ text) := by
    rw [themeEndings_eq]
    intro ending hending
    obtain ⟨t, -, rfl⟩ := List.mem_map.mp hending
    exact encode_suffix_iff hdot (encode_cons '.' t)
  rw [isMatch_iff, or_iff_right (by simp [themeTokens]), themeTokens, leaves_leading_run]
  simp only [leaves_ending]
  constructor
  · rintro ⟨_, h, ending, hending, rfl⟩
    exact ⟨ending, hending, (hsuffix ending hending).mp h⟩
  · rintro ⟨ending, hending, h⟩
    exact ⟨_, (hsuffix ending hending).mpr h, ending, hending, rfl⟩

end Glob

/-! ## Theme files below a directory -/

theorem isThemeFile_iff (path : FilePath) :
    path.isThemeFile = true ↔ ∃ ending ∈ themeEndings, ending <:+ path.chars := by
  rw [FilePath.isThemeFile, List.any_eq_true]
  simp only [List.isSuffixOf_iff_suffix]

/-- The theme files below a directory are those that the pattern finds there. -/
theorem themeFiles_eq_found {fs : FileSystem} (hfs : fs.root.WellFormed) {directory : FilePath}
    (hdirectory : directory.chars ≠ []) :
    fs.themeFiles directory = Pattern.found fs directory Glob.themeTokens := by
  have haccepts : ∀ names ∈ fs.filesBelow directory,
      (directory.below names).isThemeFile = Pattern.accepts Glob.themeTokens names := by
    intro names hmem
    obtain ⟨hne, hnames⟩ := FileSystem.isName_of_mem_filesBelow hfs hmem
    rw [FilePath.isThemeFile_below hdirectory hne hnames, Bool.eq_iff_iff, isThemeFile_iff,
      Pattern.accepts, Glob.isMatch_themeTokens]
  rw [FileSystem.themeFiles, Pattern.found, List.filter_map]
  exact congrArg (fun found => FilePath.sort (found.map directory.below))
    (List.filter_congr haccepts)

/-! ## Presets and patterns -/

namespace ThemeFiles

/-- Files that are all different are all new. -/
theorem addNew_of_pairwise {new : List FilePath} (h : new.Pairwise fun a b => a.same b = false) :
    addNew [] new = new := by
  induction new using List.reverseRecOn with
  | nil => rfl
  | append_singleton new file ih =>
    obtain ⟨hnew, -, hfile⟩ := List.pairwise_append.mp h
    rw [addNew_concat, ih hnew, if_neg]
    rw [List.any_eq_true]
    rintro ⟨other, hmem, hsame⟩
    have hdiffer := hfile other hmem file (List.mem_singleton_self file)
    rw [FilePath.same_iff.mpr (FilePath.same_iff.mp hsame).symm] at hdiffer
    cases hdiffer

theorem files_singleton {fs : FileSystem} {directory : FilePath}
    (habsolute : directory.isAbsolute = true) {pattern : String} {found : List FilePath}
    (h : Pattern.expand fs directory pattern = .ok found)
    (hdiffer : found.Pairwise fun a b => a.same b = false) :
    files ⟨directory, [pattern]⟩ fs = .ok found := by
  simp only [files, FilePath.join_of_isAbsolute _ habsolute, filesFrom, h,
    addNew_of_pairwise hdiffer]

end ThemeFiles

/-- The pattern for all theme files below a directory. -/
def themePattern (name : String) : String := name ++ "/**/*.\x7byaml,yml,json\x7d"

theorem expand_themePattern (fs : FileSystem) (directory : FilePath) {name : String}
    (hname : IsName name.toList) (hwild : Pattern.hasWildcard name.toList = false) :
    Pattern.expand fs directory (themePattern name) =
      .ok (Pattern.found fs (directory.join (.ofString name)) Glob.themeTokens) := by
  have hparts : splitSlash name.toList = [name.toList] := splitSlash_of_no_slash hname.no_slash
  have hname' : ∀ part ∈ splitSlash name.toList, Pattern.hasWildcard part = false := by
    rw [hparts]
    exact List.forall_mem_singleton.mpr hwild
  have hpattern : (themePattern name).toList =
      name.toList ++ '/' :: "**/*.\x7byaml,yml,json\x7d".toList := by
    rw [themePattern, String.toList_append]
    rfl
  have hleading : Pattern.leadingParts (themePattern name).toList = [name.toList] := by
    rw [hpattern, Pattern.leadingParts_behind hname', hparts]
    rfl
  have hrest : Pattern.wildParts (themePattern name).toList =
      Pattern.wildParts "**/*.\x7byaml,yml,json\x7d".toList := by
    rw [hpattern, Pattern.wildParts_behind hname']
  have hglob : joinSlash (Pattern.wildParts "**/*.\x7byaml,yml,json\x7d".toList) =
      "**/*.\x7byaml,yml,json\x7d".toList := by rfl
  have hne : Pattern.wildParts (themePattern name).toList ≠ [] := by
    rw [hrest]
    decide
  rw [Pattern.expand_wild fs directory hne, hrest, hglob, Glob.parse_themeGlob, hleading]
  rfl

/-- The pattern finds each theme file once. -/
theorem files_themePattern {fs : FileSystem} (hfs : fs.root.WellFormed) {directory : FilePath}
    (habsolute : directory.isAbsolute = true) {name : String} (hname : IsName name.toList)
    (hwild : Pattern.hasWildcard name.toList = false) :
    ThemeFiles.files ⟨directory, [themePattern name]⟩ fs =
      .ok (fs.themeFiles (directory.join (.ofString name))) := by
  have hne : (directory.join (.ofString name)).chars ≠ [] :=
    FilePath.chars_ne_nil (FilePath.isAbsolute_join habsolute _)
  have hselects := Pattern.selects_found hfs hne Glob.themeTokens
  rw [themeFiles_eq_found hfs hne]
  exact ThemeFiles.files_singleton habsolute (expand_themePattern fs directory hname hwild)
    (hselects.ordered.imp fun h => h.2)

/-- A preset that is found as a directory has the themes of the pattern for all theme files below that
directory: the same files are loaded in the same order, with the same result, or the same error about
the same file. -/
theorem load_directory_eq_pattern {fs : FileSystem} (hfs : fs.root.WellFormed)
    {registry : PresetRegistry} {directory : FilePath} (habsolute : directory.isAbsolute = true)
    {name : String} (hname : IsName name.toList)
    (hwild : Pattern.hasWildcard name.toList = false)
    (hfound : registry.resolve fs name = .ok (.directory (directory.join (.ofString name)))) :
    registry.load fs name = ThemeFiles.load ⟨directory, [themePattern name]⟩ fs := by
  rw [PresetRegistry.load_of_resolve hfound, ThemeFiles.load,
    files_themePattern hfs habsolute hname hwild]
  rfl

/-- A preset directory with a hidden file, a file further down, and one that is no theme file; beside it
there is a directory with the name of a theme file. -/
def cardLibrary (dark : ByteArray) : FileSystem where
  root := .directory [("lib".toList, .directory [
    ("cards.yaml".toList, .directory []),
    ("cards".toList, .directory [
      ("dark".toList, .directory [("b.tar.json".toList, .file dark)]),
      (".yaml".toList, .file "grid: {className: grid}\ncard: {className: light}".toUTF8),
      ("a.yaml.txt".toList, .file .empty)])])]
  workingDirectory := .ofString "/"

def libraryRegistry : PresetRegistry := PresetRegistry.empty.addSearchDirs [.ofString "/lib"]

theorem wellFormed_of_names {entries : List (List Char × Entry)} (names : List (List Char))
    (heq : entries.map Prod.fst = names) (hnodup : names.Nodup) (hnames : ∀ name ∈ names, IsName name)
    (h : ∀ e ∈ entries, e.2.WellFormed) : (Entry.directory entries).WellFormed :=
  .directory (heq ▸ hnodup) (fun _ he => hnames _ (heq ▸ List.mem_map_of_mem he)) h

theorem cardLibrary_wellFormed (dark : ByteArray) : (cardLibrary dark).root.WellFormed := by
  have hfile : ∀ content, Entry.WellFormed (.file content) := .file
  refine wellFormed_of_names ["lib".toList] rfl (by decide) (by decide)
    (List.forall_mem_singleton.mpr ?_)
  refine wellFormed_of_names ["cards.yaml".toList, "cards".toList] rfl (by decide) (by decide)
    (List.forall_mem_cons.mpr ⟨?_, List.forall_mem_singleton.mpr ?_⟩)
  · exact .directory (by decide) (by decide) (fun e he => by cases he)
  · refine wellFormed_of_names ["dark".toList, ".yaml".toList, "a.yaml.txt".toList] rfl (by decide)
      (by decide) (List.forall_mem_cons.mpr ⟨?_, ?_⟩)
    · exact wellFormed_of_names ["b.tar.json".toList] rfl (by decide) (by decide)
        (List.forall_mem_singleton.mpr (hfile dark))
    · exact List.forall_mem_cons.mpr ⟨hfile _, List.forall_mem_singleton.mpr (hfile _)⟩

theorem cardLibrary_resolve (dark : ByteArray) :
    libraryRegistry.resolve (cardLibrary dark) "cards" =
      .ok (.directory (.ofString "/lib/cards")) := rfl

theorem cardLibrary_files (dark : ByteArray) :
    (cardLibrary dark).themeFiles (.ofString "/lib/cards") =
      [.ofString "/lib/cards/.yaml", .ofString "/lib/cards/dark/b.tar.json"] := by
  cbv

def darkFile : ByteArray := "card: {className: dark}\nlink: {className: link}".toUTF8

/-- The hidden file goes first and the file further down last, so its card wins. If that one is no text, both
fail with it. -/
theorem cardLibrary_load :
    (∀ dark, (cardLibrary dark).root.WellFormed ∧
      libraryRegistry.resolve (cardLibrary dark) "cards" =
        .ok (.directory (.ofString "/lib/cards"))) ∧
      libraryRegistry.load (cardLibrary darkFile) "cards" =
        .ok (.ofList [("grid", .named "grid"), ("card", .named "dark"), ("link", .named "link")]) ∧
      ThemeFiles.load ⟨.ofString "/lib", [themePattern "cards"]⟩ (cardLibrary darkFile) =
        .ok (.ofList [("grid", .named "grid"), ("card", .named "dark"), ("link", .named "link")]) ∧
      libraryRegistry.load (cardLibrary ⟨#[0xFF]⟩) "cards" =
        .error (.unreadable (.ofString "/lib/cards/dark/b.tar.json") .notText) ∧
      ThemeFiles.load ⟨.ofString "/lib", [themePattern "cards"]⟩ (cardLibrary ⟨#[0xFF]⟩) =
        .error (.unreadable (.ofString "/lib/cards/dark/b.tar.json") .notText) := by
  have heq : ∀ dark, libraryRegistry.load (cardLibrary dark) "cards" =
      ThemeFiles.load ⟨.ofString "/lib", [themePattern "cards"]⟩ (cardLibrary dark) := fun dark =>
    @load_directory_eq_pattern _ (cardLibrary_wellFormed dark) _ (.ofString "/lib") rfl "cards"
      (by decide) (by decide) (cardLibrary_resolve dark)
  have hload : ∀ dark, libraryRegistry.load (cardLibrary dark) "cards" = Collection.ofFiles
      (cardLibrary dark) [.ofString "/lib/cards/.yaml", .ofString "/lib/cards/dark/b.tar.json"] := by
    intro dark
    rw [PresetRegistry.load_of_resolve (cardLibrary_resolve dark), PresetPlace.load, cardLibrary_files]
  have hdark : libraryRegistry.load (cardLibrary darkFile) "cards" =
      .ok (.ofList [("grid", .named "grid"), ("card", .named "dark"), ("link", .named "link")]) :=
    ok_of_toOption (by rw [hload]; decide +kernel)
  have hlight : Collection.ofFile (cardLibrary ⟨#[0xFF]⟩) (.ofString "/lib/cards/.yaml") =
      .ok (.ofList [("grid", .named "grid"), ("card", .named "light")]) :=
    ok_of_toOption (by decide +kernel)
  have hfault : Collection.ofFile (cardLibrary ⟨#[0xFF]⟩) (.ofString "/lib/cards/dark/b.tar.json") =
      .error (.unreadable (.ofString "/lib/cards/dark/b.tar.json") .notText) := by
    cbv
  have hbroken : libraryRegistry.load (cardLibrary ⟨#[0xFF]⟩) "cards" =
      .error (.unreadable (.ofString "/lib/cards/dark/b.tar.json") .notText) := by
    rw [hload]
    simp only [Collection.ofFiles, Collection.layerFiles, hlight, hfault]
  exact ⟨fun dark => ⟨cardLibrary_wellFormed dark, cardLibrary_resolve dark⟩,
    hdark, (heq _).symm.trans hdark, hbroken, (heq _).symm.trans hbroken⟩

end ThemeRules
