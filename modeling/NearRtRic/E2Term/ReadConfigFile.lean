/-
# The configuration file of the termination

`ReadConfigFile.h`: a file of lines `name=value`, of comments (`#`, `;` or a brace at the
start of the line) and of section headers `[section]`, which put `section.` before the
names that follow.  A line of no kind is skipped, but for a header without its bracket:
that one makes the whole file an error.

`Setting` and `Header` are lines of the two kinds with their parts in place, `Item` what a
file is written as.  `openConfigFile_render` is the round trip, with blanks around the parts
and lines that are skipped between them: every key has the value that is written for it last.
`length_getStringValue_le` is about any file.

`trim` returns a reference to its parameter; the compiler in use ends the lifetime of a
parameter with the expression of the call, so that it is still there when it is copied.
-/

import Mathlib.Data.List.AList
import NearRtRic.CString.Decimal

namespace NearRtRic.E2Term

open CString

/-- The lines that `std::getline` gives. -/
def getlines : Bytes → List Bytes
  | [] => []
  | c :: file =>
      if c = 10 then [] :: getlines file
      else match getlines file with
        | [] => [[c]]
        | line :: lines => (c :: line) :: lines

/-- One of the characters of `"\t\n\v\f\r "`. -/
def isBlank (c : UInt8) : Bool := c ∈ [9, 10, 11, 12, 13, 32]

def ltrim (str : Bytes) : Bytes := str.dropWhile isBlank

def rtrim (str : Bytes) : Bytes := (str.reverse.dropWhile isBlank).reverse

def trim (str : Bytes) : Bytes := ltrim (rtrim str)

/-- `entries`. -/
abbrev Entries := AList fun _ : Bytes => Bytes

/-- What `openConfigFile` works on. -/
structure ConfigReader where
  sectionName : Bytes
  entries : Entries

namespace ConfigReader

variable (r : ConfigReader) (line : Bytes)

/-- The part of a line before the first of a character, and the part behind it. -/
def before (c : UInt8) : Bytes := line.takeWhile (· ≠ c)

def behind (c : UInt8) : Bytes := (line.dropWhile (· ≠ c)).drop 1

/-- A line `name=value`, or one that is skipped. -/
def readEntry : ConfigReader :=
  if 61 ∈ line then
    let name := r.sectionName ++ trim (before line 61)
    let value := behind line 61
    if value = [] then r else { r with entries := r.entries.insert name (trim value) }
  else r

/-- One line; `none` for the result `-1`. -/
def readLine : Option ConfigReader :=
  match line with
  | [] => some r
  | c :: rest =>
      if c = 35 ∨ c = 59 ∨ c = 123 then some r
      else if c = 91 then
        if 93 ∈ rest then some { r with sectionName := trim (before rest 93 ++ ascii ".") }
        else none
      else some (r.readEntry line)

end ConfigReader

/-- `openConfigFile` of a file that could be opened: the entries, or `none` for the result
`-1`, which is also that of a file that could not. -/
def openConfigFile (file : Bytes) : Option Entries :=
  ((getlines file).foldlM ConfigReader.readLine ⟨[], ∅⟩).map (·.entries)

def getStringValue (entries : Entries) (key : Bytes) : Bytes := (entries.lookup key).getD []

/-- `(int)std::strtol` of the value, or `-1`; a `long` has 64 bits. -/
def getIntValue (entries : Entries) (key : Bytes) : Int :=
  match entries.lookup key with
  | none => -1
  | some value =>
      let n := (strtol (visible value)).getD 0
      Int.bmod (max (-2 ^ 63) (min n (2 ^ 63 - 1))) (2 ^ 32)

/-! ### What a file is written as -/

/-- Blanks of one line. -/
def Blanks (b : Bytes) : Prop := ∀ c ∈ b, isBlank c ∧ c ≠ 10

instance (b : Bytes) : Decidable (Blanks b) := inferInstanceAs (Decidable (∀ c ∈ b, _))

/-- The first character makes a line a comment or a header. -/
def special (c : UInt8) : Bool := c ∈ [35, 59, 91, 123]

/-- A name and a value with blanks around them. -/
structure Setting where
  name : Bytes
  value : Bytes
  left : Bytes := []
  middle : Bytes × Bytes := ([], [])
  right : Bytes := []
  blanks : Blanks left ∧ Blanks middle.1 ∧ Blanks middle.2 ∧ Blanks right
  name_line : 10 ∉ name ∧ 61 ∉ name
  name_trimmed : trim name = name
  value_line : 10 ∉ value
  value_trimmed : trim value = value
  value_ne_nil : value ≠ []
  not_special : special ((left ++ name ++ middle.1).headD 61) = false

def Setting.render (s : Setting) : Bytes :=
  s.left ++ s.name ++ s.middle.1 ++ 61 :: (s.middle.2 ++ s.value ++ s.right)

/-- A name in brackets, and what may be behind them. -/
structure Header where
  name : Bytes
  rest : Bytes := []
  name_line : 10 ∉ name ∧ 93 ∉ name
  rest_line : 10 ∉ rest

def Header.render (h : Header) : Bytes := 91 :: (h.name ++ 93 :: h.rest)

/-- What is put before the names behind a header. -/
def Header.scope (h : Header) : Bytes := trim (h.name ++ ascii ".")

/-- A line that says nothing: an empty one, a comment, or one without a `=` or without a value. -/
structure Skipped where
  line : Bytes
  one_line : 10 ∉ line
  skipped : ∀ c ∈ line.head?, c = 35 ∨ c = 59 ∨ c = 123 ∨
    c ≠ 91 ∧ (61 ∈ line → ConfigReader.behind line 61 = [])

inductive Item where
  | setting (s : Setting)
  | header (h : Header)
  | skipped (l : Skipped)

def Item.render : Item → Bytes
  | setting s => s.render
  | header h => h.render
  | skipped l => l.line

/-- The keys and values that lines say behind a header with the given scope. -/
def assignments : Bytes → List Item → List (Bytes × Bytes)
  | _, [] => []
  | scope, .setting s :: items => (scope ++ s.name, s.value) :: assignments scope items
  | _, .header h :: items => assignments h.scope items
  | scope, .skipped _ :: items => assignments scope items

/-- The value that is said last for a key. -/
def lastValue (said : List (Bytes × Bytes)) (key : Bytes) : Option Bytes := said.reverse.lookup key

/-- A later value for the key counts, and the first one where there is none. -/
theorem lastValue_cons (key' value : Bytes) (said : List (Bytes × Bytes)) (key : Bytes) :
    lastValue ((key', value) :: said) key =
      (lastValue said key).or (if key = key' then some value else none) := by
  unfold lastValue
  rw [List.reverse_cons, List.lookup_append, List.lookup_cons, List.lookup_nil]
  congr 1
  by_cases hkey : key = key'
  · rw [if_pos hkey, beq_iff_eq.2 hkey]
  · rw [if_neg hkey, beq_eq_false_iff_ne.2 hkey]

/-! ### Lines -/

/-- A line in front of the others is read first. -/
theorem getlines_append {line : Bytes} (hline : 10 ∉ line) (file : Bytes) :
    getlines (line ++ 10 :: file) = line :: getlines file := by
  induction line with
  | nil => rfl
  | cons c line ih =>
      rw [List.mem_cons, not_or] at hline
      rw [List.cons_append, getlines, if_neg fun h => hline.1 h.symm, ih hline.2]

/-- **Lines that are written are read**, each with its newline. -/
theorem getlines_flatMap {lines : List Bytes} (hlines : ∀ line ∈ lines, 10 ∉ line) :
    getlines (lines.flatMap (· ++ [10])) = lines := by
  induction lines with
  | nil => rfl
  | cons line lines ih =>
      rw [List.flatMap_cons, List.append_assoc, List.singleton_append,
        getlines_append (hlines line List.mem_cons_self),
        ih fun l hl => hlines l (List.mem_cons_of_mem line hl)]

/-- A part in front that is dropped as a whole may be left out. -/
theorem dropWhile_append_of_all {q : UInt8 → Bool} {a : Bytes} (ha : ∀ c ∈ a, q c) (x : Bytes) :
    (a ++ x).dropWhile q = x.dropWhile q := by
  induction a with
  | nil => rfl
  | cons c a ih =>
      rw [List.cons_append, List.dropWhile_cons, if_pos (ha c List.mem_cons_self)]
      exact ih fun d hd => ha d (List.mem_cons_of_mem c hd)

/-- Blanks behind a text are trimmed. -/
theorem rtrim_append_right {b : Bytes} (hb : ∀ c ∈ b, isBlank c) (x : Bytes) :
    rtrim (x ++ b) = rtrim x := by
  unfold rtrim
  rw [List.reverse_append, dropWhile_append_of_all fun c hc => hb c (List.mem_reverse.1 hc)]

/-- Blanks in front of it are, too. -/
theorem rtrim_append_left {a : Bytes} (ha : ∀ c ∈ a, isBlank c) (x : Bytes) :
    ltrim (rtrim (a ++ x)) = ltrim (rtrim x) := by
  unfold ltrim rtrim
  rw [List.reverse_append, List.dropWhile_append]
  split
  · rename_i hempty
    rw [List.isEmpty_iff.1 hempty, List.dropWhile_eq_nil_iff.2
      fun c hc => ha c (List.mem_reverse.1 hc)]
  · rw [List.reverse_append, List.reverse_reverse, dropWhile_append_of_all ha]

/-- Blanks around a text do not count. -/
theorem trim_append {a b : Bytes} (ha : Blanks a) (hb : Blanks b) (x : Bytes) :
    trim (a ++ x ++ b) = trim x := by
  unfold trim
  rw [rtrim_append_right (fun c hc => (hb c hc).1), rtrim_append_left fun c hc => (ha c hc).1]

namespace ConfigReader

variable {r : ConfigReader} {line rest : Bytes} {c : UInt8}

/-- What stands before a character that the line did not have before. -/
theorem before_append (hline : c ∉ line) : before (line ++ c :: rest) c = line := by
  unfold before
  rw [List.takeWhile_append_of_pos fun d hd => by
    rw [decide_eq_true_eq]
    rintro rfl
    exact hline hd]
  simp

/-- And what stands behind it. -/
theorem behind_append (hline : c ∉ line) : behind (line ++ c :: rest) c = rest := by
  unfold behind
  rw [dropWhile_append_of_all fun d hd => by
    rw [decide_eq_true_eq]
    rintro rfl
    exact hline hd]
  simp

/-- Among blanks there is no other character. -/
theorem notMem_of_blanks {b : Bytes} (hb : Blanks b) (hc : isBlank c = false) : c ∉ b := by
  intro h
  rw [(hb c h).1] at hc
  cases hc

/-- A line that is neither a comment nor a header. -/
theorem readLine_of_not_special (h : special (line.headD 61) = false) :
    r.readLine line = some (r.readEntry line) := by
  cases line with
  | nil => rfl
  | cons c rest =>
      have hc : ¬ (c = 35 ∨ c = 59 ∨ c = 123) ∧ c ≠ 91 := by
        simp only [special, List.headD_cons, decide_eq_false_iff_not, List.mem_cons,
          List.not_mem_nil, or_false, not_or] at h
        obtain ⟨h35, h59, h91, h123⟩ := h
        exact ⟨by simp [h35, h59, h123], h91⟩
      unfold readLine
      dsimp only
      rw [if_neg hc.1, if_neg hc.2]

/-- **A setting is read.** -/
theorem readLine_setting (s : Setting) : r.readLine s.render =
    some { r with entries := r.entries.insert (r.sectionName ++ s.name) s.value } := by
  obtain ⟨hleft, hmiddle, hmiddle', hright⟩ := s.blanks
  have hkey : 61 ∉ s.left ++ s.name ++ s.middle.1 := by
    simp only [List.mem_append, not_or]
    exact ⟨⟨notMem_of_blanks hleft rfl, s.name_line.2⟩, notMem_of_blanks hmiddle rfl⟩
  have hname : trim (s.left ++ s.name ++ s.middle.1) = s.name := by
    rw [trim_append hleft hmiddle, s.name_trimmed]
  have hvalue : trim (s.middle.2 ++ s.value ++ s.right) = s.value := by
    rw [trim_append hmiddle' hright, s.value_trimmed]
  have hne : s.middle.2 ++ s.value ++ s.right ≠ [] := by simp [s.value_ne_nil]
  have hhead : special (s.render.headD 61) = false := by
    have hspecial := s.not_special
    unfold Setting.render
    cases hcase : s.left ++ s.name ++ s.middle.1 with
    | nil => rfl
    | cons c rest =>
        rw [hcase] at hspecial
        exact hspecial
  rw [readLine_of_not_special hhead]
  unfold readEntry Setting.render
  rw [if_pos (by simp), before_append hkey, behind_append hkey, hname]
  dsimp only
  rw [if_neg hne, hvalue]

/-- A header line sets the section. -/
theorem readLine_header (h : Header) :
    r.readLine h.render = some { r with sectionName := h.scope } := by
  unfold readLine Header.render
  dsimp only
  rw [if_neg (by decide), if_pos rfl, if_pos (by simp), before_append h.name_line.2]
  rfl

/-- A line that is skipped changes nothing. -/
theorem readLine_skipped (l : Skipped) : r.readLine l.line = some r := by
  obtain ⟨line, -, hskipped⟩ := l
  cases line with
  | nil => rfl
  | cons c rest =>
      unfold readLine
      dsimp only
      rcases hskipped c rfl with h | h | h | ⟨hne, hvalue⟩
      · rw [if_pos (.inl h)]
      · rw [if_pos (.inr (.inl h))]
      · rw [if_pos (.inr (.inr h))]
      · by_cases hcomment : c = 35 ∨ c = 59 ∨ c = 123
        · rw [if_pos hcomment]
        · rw [if_neg hcomment, if_neg hne]
          unfold readEntry
          split
          · rename_i hmem
            rw [if_pos (hvalue hmem)]
          · rfl

/-- The reader after some lines. -/
theorem readLines (items : List Item) :
    ∃ r', (items.map Item.render).foldlM readLine r = some r' ∧
      ∀ key, r'.entries.lookup key =
        (lastValue (assignments r.sectionName items) key).or (r.entries.lookup key) := by
  induction items generalizing r with
  | nil => exact ⟨r, rfl, fun _ => rfl⟩
  | cons item items ih =>
      cases item with
      | header h =>
          obtain ⟨r', hr', hlookup⟩ := @ih { r with sectionName := h.scope }
          refine ⟨r', ?_, hlookup⟩
          rw [List.map_cons, List.foldlM_cons, Item.render, readLine_header]
          exact hr'
      | skipped l =>
          obtain ⟨r', hr', hlookup⟩ := @ih r
          refine ⟨r', ?_, hlookup⟩
          rw [List.map_cons, List.foldlM_cons, Item.render, readLine_skipped]
          exact hr'
      | setting s =>
          obtain ⟨r', hr', hlookup⟩ :=
            @ih { r with entries := r.entries.insert (r.sectionName ++ s.name) s.value }
          refine ⟨r', ?_, fun key => ?_⟩
          · rw [List.map_cons, List.foldlM_cons, Item.render, readLine_setting]
            exact hr'
          · rw [hlookup, assignments, lastValue_cons]
            dsimp only
            by_cases hkey : key = r.sectionName ++ s.name
            · rw [hkey, AList.lookup_insert, if_pos rfl]
              cases lastValue (assignments r.sectionName items) (r.sectionName ++ s.name) <;> rfl
            · rw [AList.lookup_insert_ne hkey, if_neg hkey, Option.or_none]

end ConfigReader

/-- No line of an item has a newline in it. -/
theorem Item.one_line (item : Item) : 10 ∉ item.render := by
  have hblanks : ∀ {b : Bytes}, Blanks b → 10 ∉ b := fun hb h => (hb 10 h).2 rfl
  cases item with
  | setting s =>
      obtain ⟨hleft, hmiddle, hmiddle', hright⟩ := s.blanks
      simp only [Item.render, Setting.render, List.mem_append, List.mem_cons, not_or]
      exact ⟨⟨⟨hblanks hleft, s.name_line.1⟩, hblanks hmiddle⟩, by decide,
        ⟨hblanks hmiddle', s.value_line⟩, hblanks hright⟩
  | header h =>
      simp only [Item.render, Header.render, List.mem_append, List.mem_cons, not_or]
      exact ⟨by decide, h.name_line.1, by decide, h.rest_line⟩
  | skipped l => exact l.one_line

/-- A file with these lines. -/
def render (items : List Item) : Bytes := (items.map Item.render).flatMap (· ++ [10])

/-- **A file that is written is read**, every key having the value that is said for it last. -/
theorem openConfigFile_render (items : List Item) : ∃ entries,
    openConfigFile (render items) = some entries ∧
      ∀ key, getStringValue entries key = (lastValue (assignments [] items) key).getD [] := by
  obtain ⟨r, hr, hlookup⟩ := @ConfigReader.readLines ⟨[], ∅⟩ items
  refine ⟨r.entries, ?_, fun key => ?_⟩
  · unfold openConfigFile render
    rw [getlines_flatMap, hr]
    · rfl
    · intro line hline
      obtain ⟨item, -, rfl⟩ := List.mem_map.1 hline
      exact item.one_line
  · rw [getStringValue, hlookup, AList.lookup_empty, Option.or_none]

/-- A comment, a setting with blanks around its parts, a header, and the same name behind it
without a value and with one. -/
def traceSettings : List Item :=
  [.skipped ⟨ascii "# of the trace", by decide +kernel, by decide +kernel⟩,
    .setting {
      name := ascii "volume"
      value := ascii "/opt/log"
      left := [9]
      middle := ([32], [32])
      right := [13]
      blanks := by decide +kernel
      name_line := by decide +kernel
      name_trimmed := by decide +kernel
      value_line := by decide +kernel
      value_trimmed := by decide +kernel
      value_ne_nil := by decide +kernel
      not_special := by decide +kernel },
    .header ⟨ascii "log", ascii " of the trace", by decide +kernel, by decide +kernel⟩,
    .skipped ⟨ascii "level=", by decide +kernel, by decide +kernel⟩,
    .setting {
      name := ascii "level"
      value := ascii "info"
      blanks := by decide +kernel
      name_line := by decide +kernel
      name_trimmed := by decide +kernel
      value_line := by decide +kernel
      value_trimmed := by decide +kernel
      value_ne_nil := by decide +kernel
      not_special := by decide +kernel }]

/-- A file with a header, settings and a comment comes back. -/
theorem openConfigFile_render_trace : ∃ entries,
    openConfigFile (render traceSettings) = some entries ∧
      getStringValue entries (ascii "volume") = ascii "/opt/log" ∧
        getStringValue entries (ascii "log.level") = ascii "info" := by
  obtain ⟨entries, hentries, hvalue⟩ := openConfigFile_render traceSettings
  exact ⟨entries, hentries, (hvalue _).trans (by decide +kernel),
    (hvalue _).trans (by decide +kernel)⟩

/-! ### How long a value is -/

/-- Trimming makes nothing longer. -/
theorem length_trim_le (str : Bytes) : (trim str).length ≤ str.length := by
  have hleft := (List.dropWhile_sublist isBlank (l := rtrim str)).length_le
  have hright := (List.dropWhile_sublist isBlank (l := str.reverse)).length_le
  rw [List.length_reverse] at hright
  unfold trim ltrim
  refine hleft.trans ?_
  rwa [rtrim, List.length_reverse]

/-- No line is longer than its file. -/
theorem length_le_of_mem_getlines {file line : Bytes} (h : line ∈ getlines file) :
    line.length ≤ file.length := by
  induction file generalizing line with
  | nil => cases h
  | cons c file ih =>
      rw [getlines] at h
      split at h
      · rcases List.mem_cons.1 h with rfl | h
        · exact Nat.zero_le _
        · exact (ih h).trans (Nat.le_succ _)
      · split at h
        · obtain rfl := List.mem_singleton.1 h
          exact Nat.succ_le_succ (Nat.zero_le _)
        · rename_i first rest heq
          rcases List.mem_cons.1 h with rfl | h
          · exact Nat.succ_le_succ (ih (heq ▸ List.mem_cons_self))
          · exact (ih (heq ▸ List.mem_cons_of_mem first h)).trans (Nat.le_succ _)

/-- What a line adds is not longer than the line. -/
theorem ConfigReader.length_readLine {r r' : ConfigReader} {line : Bytes} {n : Nat}
    (hr : ∀ key v, r.entries.lookup key = some v → v.length ≤ n) (hline : line.length ≤ n)
    (h : r.readLine line = some r') :
    ∀ key v, r'.entries.lookup key = some v → v.length ≤ n := by
  have hentry : ∀ key v, (r.readEntry line).entries.lookup key = some v → v.length ≤ n := by
    intro key v hv
    unfold readEntry at hv
    split at hv
    · dsimp only at hv
      split at hv
      · exact hr key v hv
      · dsimp only at hv
        by_cases hkey : key = r.sectionName ++ trim (before line 61)
        · rw [hkey, AList.lookup_insert] at hv
          obtain rfl := Option.some.inj hv
          have hbehind : (behind line 61).length ≤ line.length := by
            unfold behind
            rw [List.length_drop]
            exact (Nat.sub_le _ _).trans (List.dropWhile_sublist _).length_le
          exact (length_trim_le _).trans (hbehind.trans hline)
        · rw [AList.lookup_insert_ne hkey] at hv
          exact hr key v hv
    · exact hr key v hv
  unfold readLine at h
  split at h
  · obtain rfl := Option.some.inj h
    exact hr
  · split at h
    · obtain rfl := Option.some.inj h
      exact hr
    · split at h
      · split at h
        · obtain rfl := Option.some.inj h
          exact hr
        · cases h
      · obtain rfl := Option.some.inj h
        exact hentry

/-- **A value is not longer than the file.** -/
theorem length_getStringValue_le {file : Bytes} {entries : Entries}
    (h : openConfigFile file = some entries) (key : Bytes) :
    (getStringValue entries key).length ≤ file.length := by
  obtain ⟨r, hr, rfl⟩ := Option.map_eq_some_iff.1 h
  have hall : ∀ (lines : List Bytes) (r₀ : ConfigReader),
      (∀ line ∈ lines, line.length ≤ file.length) →
      (∀ key v, r₀.entries.lookup key = some v → v.length ≤ file.length) →
      lines.foldlM ConfigReader.readLine r₀ = some r →
      ∀ key v, r.entries.lookup key = some v → v.length ≤ file.length := by
    intro lines
    induction lines with
    | nil =>
        intro r₀ _ hr₀ hrun
        obtain rfl := Option.some.inj hrun
        exact hr₀
    | cons line lines ih =>
        intro r₀ hlines hr₀ hrun
        rw [List.foldlM_cons] at hrun
        obtain ⟨r₁, hr₁, hrun⟩ := Option.bind_eq_some_iff.1 hrun
        exact ih r₁ (fun l hl => hlines l (List.mem_cons_of_mem line hl))
          (ConfigReader.length_readLine hr₀ (hlines line List.mem_cons_self) hr₁) hrun
  unfold getStringValue
  cases hv : r.entries.lookup key with
  | none => exact Nat.zero_le _
  | some v =>
      refine hall _ _ (fun line hline => length_le_of_mem_getlines hline) ?_ hr key v hv
      intro key v h
      cases h

end NearRtRic.E2Term
