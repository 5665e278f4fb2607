import Mathlib.Data.List.TakeWhile
import ProgramGraphs.Failure

/-!
# Which paths name a format

`Path.extension?` takes a path apart: into its parts, the parts that say something, the
last of them, and the text after the last dot there.  `Path.HasExtension` says of the
text of a path as a whole what it comes to: the name of a file stands at the end of the
path, before nothing but separators and single dots, and the extension at the end of the
name (`Path.extension?_eq_some_iff`).

A format is found exactly for the paths whose extension is that of the format, letter case
aside, and for all others the extension, or its absence, is reported (`ofPath_exact`).
-/

namespace ProgramGraphs

namespace Path

/-- A text that says nothing at the end of a path: separators, each alone or before a
single dot. -/
inductive Idle : List Char → Prop where
  | nil : Idle []
  | separator {rest : List Char} (hrest : Idle rest) : Idle ('/' :: rest)
  | dot {rest : List Char} (hrest : Idle rest) : Idle ('/' :: '.' :: rest)

/-- A text after which a part of a path can start. -/
def Opens (front : List Char) : Prop := front = [] ∨ ∃ outer, front = outer ++ ['/']

/-- Whether a part can be the name of a file. -/
def IsName (name : List Char) : Prop :=
  '/' ∉ name ∧ name ≠ [] ∧ name ≠ ['.'] ∧ name ≠ ['.', '.']

/-- A path leads to a file of this name. -/
def LeadsTo (path name : List Char) : Prop :=
  ∃ front idle, path = front ++ name ++ idle ∧ Opens front ∧ IsName name ∧ Idle idle

/-- The text after the last dot of a name, when that dot is not its first character. -/
def EndsIn (name extension : List Char) : Prop :=
  '.' ∉ extension ∧ ∃ stem, stem ≠ [] ∧ name = stem ++ '.' :: extension

/-- A path leads to a file whose name has this extension. -/
def HasExtension (path extension : String) : Prop :=
  ∃ name, LeadsTo path.toList name ∧ EndsIn name extension.toList

/-! ## The name of a file -/

theorem parts_eq_splitOn (text : List Char) : parts text = text.splitOn '/' := by
  induction text with
  | nil => rfl
  | cons c text ih =>
      rw [parts, ih, List.splitOn_cons_eq_if_modifyHead]
      by_cases hc : c = '/'
      · rw [if_pos hc, if_pos (beq_iff_eq.mpr hc)]
      · rw [if_neg hc, if_neg (mt beq_iff_eq.mp hc)]
        cases hparts : text.splitOn '/' with
        | nil => exact absurd hparts (List.splitOn_ne_nil '/' text)
        | cons part others => rfl

theorem parts_append_separator (front rest : List Char) :
    parts (front ++ '/' :: rest) = parts front ++ parts rest := by
  rw [parts_eq_splitOn, parts_eq_splitOn, parts_eq_splitOn, List.splitOn_append_cons_self]

theorem parts_of_notMem {text : List Char} (hslash : '/' ∉ text) : parts text = [text] := by
  rw [parts_eq_splitOn, List.splitOn_eq_singleton hslash]

theorem intercalate_parts (text : List Char) : List.intercalate ['/'] (parts text) = text := by
  rw [parts_eq_splitOn, List.intercalate_splitOn]

theorem slash_notMem_parts (text : List Char) : ∀ part ∈ parts text, '/' ∉ part := by
  induction text with
  | nil => simp [parts]
  | cons c text ih =>
      rw [parts]
      by_cases hc : c = '/'
      · rw [if_pos hc]
        exact List.forall_mem_cons.mpr ⟨List.not_mem_nil, ih⟩
      · rw [if_neg hc]
        cases hparts : parts text with
        | nil => simpa using Ne.symm hc
        | cons part others =>
            rw [hparts] at ih
            obtain ⟨hpart, hothers⟩ := List.forall_mem_cons.mp ih
            refine List.forall_mem_cons.mpr ⟨fun hmem => ?_, hothers⟩
            exact (List.mem_cons.mp hmem).elim (Ne.symm hc) hpart

theorem meaningful_eq_false_iff {part : List Char} :
    meaningful part = false ↔ part = [] ∨ part = ['.'] := by
  simp [meaningful, or_iff_not_imp_left]

/-- What follows a name idly adds nothing that says where to go. -/
theorem filter_parts_idle {name idle : List Char} (hslash : '/' ∉ name) (hidle : Idle idle) :
    (parts (name ++ idle)).filter meaningful = [name].filter meaningful := by
  induction hidle generalizing name with
  | nil => rw [List.append_nil, parts_of_notMem hslash]
  | @separator rest _ ih =>
      have hrest : (parts rest).filter meaningful = [] := @ih [] List.not_mem_nil
      rw [parts_append_separator, parts_of_notMem hslash, List.filter_append, hrest,
        List.append_nil]
  | @dot rest _ ih =>
      have hrest : (parts ('.' :: rest)).filter meaningful = [] := @ih ['.'] (by decide)
      rw [parts_append_separator, parts_of_notMem hslash, List.filter_append, hrest,
        List.append_nil]

/-- Parts that say nothing after a name are idle. -/
theorem intercalate_idle (name : List Char) {after : List (List Char)}
    (hafter : ∀ part ∈ after, meaningful part = false) :
    ∃ idle, List.intercalate ['/'] (name :: after) = name ++ idle ∧ Idle idle := by
  induction after generalizing name with
  | nil => exact ⟨[], by simp, .nil⟩
  | cons part after ih =>
      obtain ⟨hpart, hafter⟩ := List.forall_mem_cons.mp hafter
      obtain ⟨idle, hidle, hidles⟩ := ih part hafter
      rw [List.intercalate_cons_cons, hidle]
      rcases meaningful_eq_false_iff.mp hpart with rfl | rfl
      · exact ⟨'/' :: idle, by simp, .separator hidles⟩
      · exact ⟨'/' :: '.' :: idle, by simp, .dot hidles⟩

theorem intercalate_front (before : List (List Char)) (name : List Char)
    (after : List (List Char)) :
    ∃ front, List.intercalate ['/'] (before ++ name :: after) =
      front ++ List.intercalate ['/'] (name :: after) ∧ Opens front := by
  induction before with
  | nil => exact ⟨[], rfl, .inl rfl⟩
  | cons part before ih =>
      obtain ⟨front, hfront, hopens⟩ := ih
      refine ⟨part ++ ['/'] ++ front, ?_, ?_⟩
      · rw [List.cons_append, List.intercalate_cons_of_ne_nil (by simp), hfront]
        simp only [List.append_assoc]
      · rcases hopens with rfl | ⟨outer, rfl⟩
        · exact .inr ⟨part, List.append_nil _⟩
        · exact .inr ⟨part ++ ['/'] ++ outer, (List.append_assoc ..).symm⟩

/-- **The name of the file is the last part of the path that says something.** -/
theorem fileName?_eq_some_iff {path : String} {name : List Char} :
    fileName? path = some name ↔ LeadsTo path.toList name := by
  unfold fileName? components
  rw [Option.filter_eq_some_iff, bne_iff_ne]
  constructor
  · rintro ⟨hlast, hup⟩
    rw [List.getLast?_filter, List.find?_eq_some_iff_append] at hlast
    obtain ⟨hname, after, before, hparts, hafter⟩ := hlast
    have hsplit : parts path.toList = before.reverse ++ name :: after.reverse := by
      rw [← List.reverse_reverse (parts path.toList), hparts]
      simp
    obtain ⟨front, hfront, hopens⟩ := intercalate_front before.reverse name after.reverse
    have hnothing : ∀ part ∈ after.reverse, meaningful part = false := fun part hpart => by
      simpa using hafter part (List.mem_reverse.mp hpart)
    obtain ⟨idle, hidle, hidles⟩ := intercalate_idle name hnothing
    refine ⟨front, idle, ?_, hopens, ⟨?_, ?_, ?_, hup⟩, hidles⟩
    · rw [← intercalate_parts path.toList, hsplit, hfront, hidle, List.append_assoc]
    · exact slash_notMem_parts path.toList name
        (hsplit ▸ List.mem_append_right _ List.mem_cons_self)
    · rintro rfl
      exact absurd hname (by decide)
    · rintro rfl
      exact absurd hname (by decide)
  · rintro ⟨front, idle, hpath, hopens, ⟨hslash, hne, hdot, hup⟩, hidle⟩
    refine ⟨?_, hup⟩
    have hname : meaningful name = true := by
      rw [← Bool.not_eq_false, meaningful_eq_false_iff, not_or]
      exact ⟨hne, hdot⟩
    have hend : (parts (name ++ idle)).filter meaningful = [name] := by
      rw [filter_parts_idle hslash hidle, List.filter_cons_of_pos hname, List.filter_nil]
    rw [hpath, List.append_assoc]
    rcases hopens with rfl | ⟨outer, rfl⟩
    · rw [List.nil_append, hend]
      rfl
    · rw [List.append_assoc, List.singleton_append, parts_append_separator, List.filter_append,
        hend, List.getLast?_concat]

/-! ## The extension of a name -/

theorem endsIn_of_extensionOfName? {name extension : List Char}
    (hfound : extensionOfName? name = some extension) : EndsIn name extension := by
  dsimp only [extensionOfName?] at hfound
  have hsplit := List.takeWhile_append_dropWhile (p := fun c => decide (c ≠ '.'))
    (l := name.reverse)
  have hhead := List.head?_dropWhile_not (fun c => decide (c ≠ '.')) name.reverse
  split at hfound
  next dot last rest hrest =>
    rw [hrest] at hsplit hhead
    -- the search from the end stopped at a dot, and the name goes on before it
    obtain rfl : dot = '.' := by simpa using hhead
    obtain rfl := Option.some.inj hfound
    refine ⟨fun hmem => ?_, (last :: rest).reverse, by simp, ?_⟩
    · have hpass := List.mem_takeWhile_imp (List.mem_reverse.mp hmem)
      exact absurd hpass (by decide)
    · calc name = (name.reverse.takeWhile (fun c => decide (c ≠ '.')) ++
            '.' :: last :: rest).reverse := by rw [hsplit, List.reverse_reverse]
        _ = _ := by rw [List.reverse_append, List.reverse_cons, List.append_assoc]; rfl
  next => exact absurd hfound nofun

theorem extensionOfName?_of_endsIn {name extension : List Char} (hends : EndsIn name extension) :
    extensionOfName? name = some extension := by
  obtain ⟨hdot, stem, hstem, rfl⟩ := hends
  have hpass : ∀ c ∈ extension.reverse, decide (c ≠ '.') = true := by
    intro c hc
    exact decide_eq_true fun heq => hdot (heq ▸ List.mem_reverse.mp hc)
  have hreverse : (stem ++ '.' :: extension).reverse =
      extension.reverse ++ '.' :: stem.reverse := by simp
  obtain ⟨last, rest, hlast⟩ := List.exists_cons_of_ne_nil (mt List.reverse_eq_nil_iff.mp hstem)
  have hafter : ('.' :: stem.reverse).dropWhile (fun c => decide (c ≠ '.')) =
      '.' :: last :: rest := by rw [hlast]; rfl
  have hbefore : ('.' :: stem.reverse).takeWhile (fun c => decide (c ≠ '.')) = [] := rfl
  dsimp only [extensionOfName?]
  rw [hreverse, List.dropWhile_append_of_pos hpass, hafter, List.takeWhile_append_of_pos hpass,
    hbefore, List.append_nil, List.reverse_reverse]

theorem extensionOfName?_eq_some_iff {name extension : List Char} :
    extensionOfName? name = some extension ↔ EndsIn name extension :=
  ⟨endsIn_of_extensionOfName?, extensionOfName?_of_endsIn⟩

/-- **The extension of a path can be read off its text.** -/
theorem extension?_eq_some_iff {path extension : String} :
    extension? path = some extension ↔ HasExtension path extension := by
  unfold extension? HasExtension
  simp only [Option.map_eq_some_iff, Option.bind_eq_some_iff, fileName?_eq_some_iff,
    extensionOfName?_eq_some_iff]
  constructor
  · rintro ⟨_, ⟨name, hname, hends⟩, rfl⟩
    exact ⟨name, hname, by rwa [String.toList_ofList]⟩
  · rintro ⟨name, hname, hends⟩
    exact ⟨_, ⟨name, hname, hends⟩, String.ofList_toList⟩

/-! ## A name put before an extension -/

/-- Every text is a place where a part can start and the part that starts there. -/
theorem exists_opens (text : List Char) :
    ∃ front last, text = front ++ last ∧ Opens front ∧ '/' ∉ last := by
  induction text with
  | nil => exact ⟨[], [], rfl, .inl rfl, List.not_mem_nil⟩
  | cons c text ih =>
      obtain ⟨front, last, rfl, hopens, hslash⟩ := ih
      rcases hopens with rfl | ⟨outer, rfl⟩
      · by_cases hc : c = '/'
        · exact ⟨['/'], last, by rw [hc]; rfl, .inr ⟨[], rfl⟩, hslash⟩
        · refine ⟨[], c :: last, rfl, .inl rfl, fun hmem => ?_⟩
          exact (List.mem_cons.mp hmem).elim (Ne.symm hc) hslash
      · exact ⟨c :: (outer ++ ['/']), last, rfl, .inr ⟨c :: outer, rfl⟩, hslash⟩

/-- A plain extension can be given to any text that a file name can start with. -/
theorem hasExtension_append {stem extension : String} (hstem : stem ≠ "")
    (hend : stem.toList.getLast? ≠ some '/') (hne : extension ≠ "")
    (hplain : ∀ c ∈ extension.toList, c ≠ '/' ∧ c ≠ '.') :
    HasExtension (stem ++ "." ++ extension) extension := by
  obtain ⟨front, last, hsplit, hopens, hslash⟩ := exists_opens stem.toList
  have hlast : last ≠ [] := by
    rintro rfl
    rw [List.append_nil] at hsplit
    rcases hopens with rfl | ⟨outer, rfl⟩
    · exact hstem (String.toList_eq_nil_iff.mp hsplit)
    · exact hend (by rw [hsplit, List.getLast?_concat])
  have hdot : '.' ∉ extension.toList := fun hmem => (hplain '.' hmem).2 rfl
  -- the name has a character other than a dot
  have hfull : ∀ {name : List Char}, last ++ '.' :: extension.toList = name →
      ¬ ∀ c ∈ name, c = '.' := by
    rintro name rfl hdots
    obtain ⟨c, hc⟩ := List.exists_mem_of_ne_nil _ (mt String.toList_eq_nil_iff.mp hne)
    exact (hplain c hc).2 (hdots c (by simp [hc]))
  refine ⟨last ++ '.' :: extension.toList, ⟨front, [], ?_, hopens, ⟨?_, ?_, ?_, ?_⟩, .nil⟩,
    hdot, last, hlast, rfl⟩
  · simp [hsplit]
  · rw [List.mem_append, List.mem_cons, not_or, not_or]
    exact ⟨hslash, by decide, fun hmem => (hplain '/' hmem).1 rfl⟩
  · simp
  · exact fun hname => hfull hname (by simp)
  · exact fun hname => hfull hname (by simp)

end Path

/-! ## Formats -/

/-- Two texts are equal but for the case of ASCII letters. -/
def EqualUpToCase (first second : String) : Prop :=
  first.toList.map Char.toLower = second.toList.map Char.toLower

instance (first second : String) : Decidable (EqualUpToCase first second) :=
  inferInstanceAs (Decidable (_ = _))

namespace Format

theorem toLower_extension (format : Format) : format.extension.toLower = format.extension := by
  cases format <;> decide +kernel

theorem toLower_eq_extension_iff {token : String} {format : Format} :
    token.toLower = format.extension ↔ EqualUpToCase token format.extension := by
  rw [EqualUpToCase, ← String.toList_map, ← String.toList_map, String.toList_inj]
  exact Eq.congr_right (toLower_extension format).symm

theorem extension_inj {first second : Format} :
    first.extension = second.extension ↔ first = second := by
  cases first <;> cases second <;> decide

/-- A token names the format whose extension it is, letter case aside. -/
theorem ofToken_eq_ok_iff {token : String} {format : Format} :
    ofToken token = .ok format ↔ EqualUpToCase token format.extension := by
  rw [← toLower_eq_extension_iff]
  unfold ofToken
  cases hfound : all.find? fun format => token.toLower == format.extension with
  | some found =>
      have hsame : token.toLower = found.extension := by simpa using List.find?_some hfound
      rw [hsame, extension_inj]
      exact ⟨Except.ok.inj, congrArg Except.ok⟩
  | none =>
      refine iff_of_false nofun fun hsame => ?_
      have hnone := List.find?_eq_none.mp hfound format (by cases format <;> decide)
      exact hnone (beq_iff_eq.mpr hsame)

theorem ofToken_eq_error_iff {token : String} {problem : FormatProblem} :
    ofToken token = .error problem ↔
      (∀ format : Format, ¬ EqualUpToCase token format.extension) ∧
        problem = .unsupported token := by
  simp only [← ofToken_eq_ok_iff]
  cases hfound : ofToken token with
  | ok found => simp
  | error found =>
      have hreport : found = .unsupported token := by
        unfold ofToken at hfound
        split at hfound
        next => cases hfound
        next => exact (Except.error.inj hfound).symm
      simp [hreport, eq_comm]

/-- **A path names a format by its extension.**  Which extension a path has is read off its
text.  Letter case aside, it is that of the format; an extension that names no format is
reported as it stands, and so is a path that has none.  Put before the extension of a
format, a text that does not end in a separator becomes a path to a file in the format. -/
theorem ofPath_exact :
    (∀ path format, ofPath path = .ok format ↔
      ∃ token, Path.HasExtension path token ∧ EqualUpToCase token format.extension) ∧
      (∀ path problem, ofPath path = .error problem ↔
        (∃ token, Path.HasExtension path token ∧
          (∀ format : Format, ¬ EqualUpToCase token format.extension) ∧
          problem = .unsupported token ∧ problem.subject = token) ∨
        ((∀ token, ¬ Path.HasExtension path token) ∧ problem = .noExtension path ∧
          problem.subject = path ++ " has no file extension")) ∧
      ∀ (stem : String) (format : Format), stem ≠ "" → stem.toList.getLast? ≠ some '/' →
        ofPath (stem ++ "." ++ format.extension) = .ok format := by
  have hok : ∀ path format, ofPath path = .ok format ↔
      ∃ token, Path.HasExtension path token ∧ EqualUpToCase token format.extension := by
    intro path format
    simp only [← Path.extension?_eq_some_iff, ← ofToken_eq_ok_iff, ofPath]
    cases hextension : Path.extension? path <;> simp
  refine ⟨hok, fun path problem => ?_, fun stem format hstem hend => ?_⟩
  · simp only [← Path.extension?_eq_some_iff, ofPath]
    cases hextension : Path.extension? path with
    | none =>
        constructor
        · rintro ⟨⟩
          exact .inr ⟨nofun, rfl, rfl⟩
        · rintro (⟨token, hfound, -⟩ | ⟨-, rfl, -⟩)
          · cases hfound
          · rfl
    | some token =>
        simp only [ofToken_eq_error_iff]
        constructor
        · rintro ⟨hnone, rfl⟩
          exact .inl ⟨token, rfl, hnone, rfl, rfl⟩
        · rintro (⟨_, ⟨⟩, hnone, rfl, -⟩ | ⟨hfound, -⟩)
          · exact ⟨hnone, rfl⟩
          · exact absurd rfl (hfound token)
  · rw [hok]
    have hne : format.extension ≠ "" := by cases format <;> decide
    have hplain : ∀ c ∈ format.extension.toList, c ≠ '/' ∧ c ≠ '.' := by
      cases format <;> simp [extension]
    exact ⟨format.extension, Path.hasExtension_append hstem hend hne hplain, rfl⟩

/-- A name whose only dot comes first, one with nothing after it that counts, and one that
starts with its dots. -/
theorem ofPath_dotted :
    ofPath "out/.json" = .error (.noExtension "out/.json") ∧
      ofPath "out/a.GraphML/./" = .ok .graphMl ∧ ofPath "a.tar/..json" = .ok .json := by
  obtain ⟨hok, herror, hstem⟩ := ofPath_exact
  have hnone : Path.extension? "out/.json" = none := by decide
  have hfound : Path.extension? "out/a.GraphML/./" = some "GraphML" := by decide
  refine ⟨(herror _ _).mpr (.inr ⟨fun token hextension => ?_, rfl, rfl⟩), ?_, ?_⟩
  · rw [← Path.extension?_eq_some_iff, hnone] at hextension
    cases hextension
  · exact (hok _ _).mpr ⟨"GraphML", Path.extension?_eq_some_iff.mp hfound, by decide⟩
  · exact hstem "a.tar/." .json (by decide) (by decide)

end Format

end ProgramGraphs
