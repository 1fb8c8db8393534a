import Provisioner.Proofs.Dotenv.Key

/-!
# Reading back what is written

`Dotenv.render` writes every entry of a map as one line with the value in double
quotes, and escapes four characters of the value.  `Dotenv.parse` reads a file in
two passes: the first finds logical lines, the second reads the key and the value
of each.  Both passes are undone on such a file.

* Lines.  `scan_renderEntry` says that a written line ends outside quotes, and
  `logicalLines_render` that the logical lines are the written ones.
* Values.  `read_escaped` says that the reader of values takes the escapes back.
* Files.  `parse_render` is the result.  It holds under every process environment,
  because no written value refers to a variable.
-/

namespace Provisioner.Dotenv

/-- A written line without the line feed at its end. -/
def entryLine (key value : String) : List Char :=
  key.toList ++ '=' :: '"' :: (value.toList.flatMap escapeChar ++ ['"'])

theorem renderEntry_eq (key value : String) :
    renderEntry key value = entryLine key value ++ ['\n'] := by
  simp [renderEntry, entryLine]

/-! ## Escapes -/

/-- The five forms that a character is written in. -/
theorem escapeChar_cases (c : Char) :
    c = '\\' ∧ escapeChar c = ['\\', '\\'] ∨ c = '"' ∧ escapeChar c = ['\\', '"'] ∨
      c = '$' ∧ escapeChar c = ['\\', '$'] ∨ c = '\n' ∧ escapeChar c = ['\\', 'n'] ∨
        (c ≠ '\\' ∧ c ≠ '"' ∧ c ≠ '$' ∧ c ≠ '\n') ∧ escapeChar c = [c] := by
  by_cases hescape : c = '\\'
  · exact .inl ⟨hescape, by simp [escapeChar, hescape]⟩
  by_cases hquote : c = '"'
  · exact .inr (.inl ⟨hquote, by simp [escapeChar, hquote]⟩)
  by_cases hdollar : c = '$'
  · exact .inr (.inr (.inl ⟨hdollar, by simp [escapeChar, hdollar]⟩))
  by_cases hfeed : c = '\n'
  · exact .inr (.inr (.inr (.inl ⟨hfeed, by simp [escapeChar, hfeed]⟩)))
  · refine .inr (.inr (.inr (.inr ⟨⟨hescape, hquote, hdollar, hfeed⟩, ?_⟩)))
    simp [escapeChar, hescape, hquote, hdollar, hfeed]

theorem newline_not_mem_escapeChar (c : Char) : '\n' ∉ escapeChar c := by
  rcases escapeChar_cases c with ⟨-, h⟩ | ⟨-, h⟩ | ⟨-, h⟩ | ⟨-, h⟩ | ⟨⟨-, -, -, hne⟩, h⟩
  · rw [h]; decide
  · rw [h]; decide
  · rw [h]; decide
  · rw [h]; decide
  · rw [h, List.mem_singleton]
    exact Ne.symm hne

/-- A written line is one physical line. -/
theorem newline_not_mem_entryLine {key : String} (h : IsKey key) (value : String) :
    '\n' ∉ entryLine key value := by
  have hkey : '\n' ∉ key.toList := fun hmem => absurd (h.2 _ hmem) (by decide)
  have hvalue : '\n' ∉ value.toList.flatMap escapeChar := fun hmem =>
    let ⟨c, _, hc⟩ := List.mem_flatMap.1 hmem
    newline_not_mem_escapeChar c hc
  simp [entryLine, hkey, hvalue]

/-! ## Lines -/

theorem cutLines_append {line : List Char} (h : '\n' ∉ line) (rest : List Char) :
    cutLines (line ++ '\n' :: rest) = (line ++ ['\n']) :: cutLines rest := by
  induction line with
  | nil => simp [cutLines]
  | cons c line ih =>
    have hc : c ≠ '\n' := fun heq => h (heq ▸ List.mem_cons_self)
    have hline : '\n' ∉ line := fun hmem => h (List.mem_cons_of_mem _ hmem)
    rw [List.cons_append, cutLines, if_neg hc, ih hline]
    rfl

namespace Line

/-- One more character, which starts no comment. -/
theorem scan_cons {s t : State} {c : Char} {rest : List Char} (hs : s ≠ .blank)
    (h : scan (s.next c) rest = .inr t) : scan s (c :: rest) = .inr t := by
  rw [scan, if_neg fun hc => hs hc.1, h]

theorem scan_append {s t u : State} {first second : List Char}
    (hfirst : scan s first = .inr t) (hsecond : scan t second = .inr u) :
    scan s (first ++ second) = .inr u := by
  induction first generalizing s with
  | nil =>
    obtain rfl : s = t := Sum.inr.inj hfirst
    exact hsecond
  | cons c first ih =>
    rw [scan] at hfirst
    rw [List.cons_append, scan]
    split at hfirst
    · cases hfirst
    · rename_i hcomment
      rw [if_neg hcomment]
      split at hfirst
      · cases hfirst
      · rename_i final hfinal
        obtain rfl : final = t := Sum.inr.inj hfirst
        rw [ih hfinal]

theorem scan_key {key : List Char} (h : ∀ c ∈ key, isKeyChar c = true) :
    scan .plain key = .inr .plain := by
  induction key with
  | nil => rfl
  | cons c key ih =>
    refine scan_cons (by decide) ?_
    rw [State.next_key (h c List.mem_cons_self)]
    exact ih fun d hd => h d (List.mem_cons_of_mem _ hd)

theorem scan_escapeChar (c : Char) : scan .weak (escapeChar c) = .inr .weak := by
  rcases escapeChar_cases c with ⟨-, h⟩ | ⟨-, h⟩ | ⟨-, h⟩ | ⟨-, h⟩ | ⟨⟨hne, hquote, -⟩, h⟩
  · rw [h]; rfl
  · rw [h]; rfl
  · rw [h]; rfl
  · rw [h]; rfl
  · rw [h]
    exact scan_cons (by decide) (by simp [State.next, hne, hquote, scan])

theorem scan_escaped (cs : List Char) : scan .weak (cs.flatMap escapeChar) = .inr .weak := by
  induction cs with
  | nil => rfl
  | cons c cs ih =>
    rw [List.flatMap_cons]
    exact scan_append (scan_escapeChar c) ih

/-- A written line ends outside quotes. -/
theorem scan_renderEntry {key : String} (h : IsKey key) (value : String) :
    scan .plain (renderEntry key value) = .inr .plain := by
  refine scan_append (scan_key h.2) ?_
  refine scan_cons (by decide) (scan_cons (by decide) ?_)
  exact scan_append (scan_escaped value.toList) rfl

theorem stripEnd_renderEntry (key value : String) :
    stripEnd (renderEntry key value) = entryLine key value := by
  simp [stripEnd, renderEntry, entryLine]

end Line

/-- A written line is no comment. -/
theorem head?_trimStart_renderEntry {key : String} (h : IsKey key) (value : String) :
    (Text.trimStartChars (renderEntry key value)).head? ≠ some '#' := by
  obtain ⟨⟨c, rest, hkey, hstart⟩, -⟩ := h
  have hc : isKeyChar c = true := isKeyChar_of_isKeyStart hstart
  have hne : c ≠ '#' := ne_of_isKeyChar hc (by decide)
  simp [Text.trimStartChars, renderEntry, hkey, isBlank_of_isKeyChar hc, hne]

theorem cutLines_render {entries : List (String × String)}
    (h : ∀ e ∈ entries, IsKey e.1) :
    cutLines (entries.flatMap fun e => renderEntry e.1 e.2) =
      entries.map fun e => renderEntry e.1 e.2 := by
  induction entries with
  | nil => rfl
  | cons e entries ih =>
    have he : '\n' ∉ entryLine e.1 e.2 := newline_not_mem_entryLine (h e List.mem_cons_self) e.2
    rw [List.flatMap_cons, List.map_cons, renderEntry_eq, List.append_assoc,
      List.singleton_append, cutLines_append he, ih fun d hd => h d (List.mem_cons_of_mem _ hd)]

theorem joinLines_render {entries : List (String × String)} (h : ∀ e ∈ entries, IsKey e.1) :
    joinLines (entries.map fun e => .ok (renderEntry e.1 e.2)) [] .plain =
      entries.map fun e => .ok (entryLine e.1 e.2) := by
  induction entries with
  | nil => rfl
  | cons e entries ih =>
    have he : IsKey e.1 := h e List.mem_cons_self
    rw [List.map_cons, List.map_cons, joinLines, List.nil_append,
      if_neg (head?_trimStart_renderEntry he e.2), Line.scan_renderEntry he e.2]
    dsimp only
    rw [Line.stripEnd_renderEntry, ih fun d hd => h d (List.mem_cons_of_mem _ hd)]

/-- The logical lines of a written file are the lines that were written. -/
theorem logicalLines_render {values : KeyMap String} (h : HasKeys values) :
    logicalLines (.text (render values)) =
      values.entries.map fun e => .ok (entryLine e.1 e.2) := by
  have hphysical : physicalLines (.text (render values)) =
      values.entries.map fun e => .ok (renderEntry e.1 e.2) := by
    simp only [physicalLines, render, String.toList_ofList, cutLines_render h, List.map_map]
    rfl
  rw [logicalLines, hphysical]
  exact joinLines_render h

/-! ## Values -/

namespace Value

/-- In double quotes an escape stands for the character that was escaped. -/
theorem read_escapeChar (lookup : String → String) (last index : Nat) (c : Char)
    (rest : List Char) :
    read lookup last (.text true) index (escapeChar c ++ rest) =
      (read lookup last (.text true) (index + (escapeChar c).length) rest).map ([c] ++ ·) := by
  have hmap (r : Except Nat (List Char)) : (r.map (c :: ·)).map ([] ++ ·) = r.map (c :: ·) := by
    cases r <;> rfl
  rcases escapeChar_cases c with
    ⟨rfl, h⟩ | ⟨rfl, h⟩ | ⟨rfl, h⟩ | ⟨rfl, h⟩ | ⟨⟨hescape, hquote, hdollar, -⟩, h⟩
  · rw [h]; exact hmap _
  · rw [h]; exact hmap _
  · rw [h]; exact hmap _
  · rw [h]; exact hmap _
  · rw [h, List.singleton_append, read]
    simp [step, stepText, hescape, hquote, hdollar]

/-- The reader takes the escapes of a written value back. -/
theorem read_escaped (lookup : String → String) (last index : Nat) (cs rest : List Char) :
    read lookup last (.text true) index (cs.flatMap escapeChar ++ rest) =
      (read lookup last (.text true) (index + (cs.flatMap escapeChar).length) rest).map
        (cs ++ ·) := by
  induction cs generalizing index with
  | nil =>
    cases h : read lookup last (.text true) index rest <;> simp [h, Except.map]
  | cons c cs ih =>
    rw [List.flatMap_cons, List.append_assoc, read_escapeChar, ih, List.length_append,
      Nat.add_assoc]
    cases read lookup last (.text true) _ rest <;> rfl

theorem read_quoted (lookup : String → String) (last : Nat) (cs : List Char) :
    read lookup last (.text false) 0 ('"' :: (cs.flatMap escapeChar ++ ['"'])) = .ok cs := by
  have hopen (rest : List Char) : read lookup last (.text false) 0 ('"' :: rest) =
      (read lookup last (.text true) 1 rest).map ([] ++ ·) := rfl
  have hclose (index : Nat) : read lookup last (.text true) index ['"'] = .ok [] := rfl
  rw [hopen, read_escaped, hclose]
  simp [Except.map]

end Value

/-! ## Files -/

theorem trimEndChars_append {c : Char} (h : Text.isBlank c = false) (cs : List Char) :
    Text.trimEndChars (cs ++ [c]) = cs ++ [c] := by
  simp [Text.trimEndChars, h]

theorem Rest.skipBlanks_cons {c : Char} (h : Text.isBlank c = false) (rest : List Char)
    (offset : Nat) : Rest.skipBlanks ⟨c :: rest, offset⟩ = ⟨c :: rest, offset⟩ := by
  simp [skipBlanks, h, Text.Utf8.size]

theorem Rest.key?_entryLine {key : String} (h : IsKey key) (rest : List Char) :
    Rest.key? ⟨key.toList ++ '=' :: rest, 0⟩ = some (key, ⟨'=' :: rest, key.toList.length⟩) := by
  obtain ⟨⟨c, more, hkey, hstart⟩, hall⟩ := h
  have hequals : isKeyChar '=' = false := by decide
  have htake : (key.toList ++ '=' :: rest).takeWhile isKeyChar = key.toList := by
    rw [List.takeWhile_append_of_pos hall, List.takeWhile_cons, hequals]
    simp
  have hdrop : (key.toList ++ '=' :: rest).dropWhile isKeyChar = '=' :: rest := by
    rw [List.dropWhile_append_of_pos hall, List.dropWhile_cons, hequals]
    simp
  have hblank : Text.isBlank '=' = false := by decide
  unfold key?
  dsimp only
  split
  · simp_all
  · rename_i d after hchars
    obtain rfl : c = d := by
      rw [hkey] at hchars
      exact (List.cons.inj hchars).1
    rw [if_pos hstart, htake, hdrop, skipBlanks_cons hblank, String.ofList_toList, Nat.zero_add]

/-- The line of an entry binds its key to its value, whatever variables there are. -/
theorem readLine_entryLine (lookup : String → String) {key : String} (h : IsKey key)
    (value : String) : readLine lookup (entryLine key value) = .ok (some (key, value)) := by
  obtain ⟨c, rest, hkey, hstart⟩ := h.1
  have hc : isKeyChar c = true := isKeyChar_of_isKeyStart hstart
  have hquote : Text.isBlank '"' = false := by decide
  have htrim : Text.trimEndChars (entryLine key value) = entryLine key value := by
    have := trimEndChars_append hquote
      (key.toList ++ '=' :: '"' :: value.toList.flatMap escapeChar)
    simpa [entryLine] using this
  have hskip : Rest.skipBlanks ⟨entryLine key value, 0⟩ = ⟨entryLine key value, 0⟩ := by
    rw [entryLine, hkey]
    exact Rest.skipBlanks_cons (isBlank_of_isKeyChar hc) _ 0
  have hidle : Rest.isIdle ⟨entryLine key value, 0⟩ = false := by
    have hne : c ≠ '#' := ne_of_isKeyChar hc (by decide)
    simp [Rest.isIdle, entryLine, hkey, hne]
  have hread : readKey ⟨entryLine key value, 0⟩ =
      .ok (key, ⟨'"' :: (value.toList.flatMap escapeChar ++ ['"']), key.toList.length + 1⟩) := by
    rw [readKey, entryLine, Rest.key?_entryLine h]
    rfl
  unfold readLine
  simp only [htrim, hskip, hidle, hread, Rest.skipBlanks_cons hquote, Value.read_quoted,
    String.ofList_toList]
  rfl

theorem readLines_entryLines (environment : KeyMap String) {entries : List (String × String)}
    (h : ∀ e ∈ entries, IsKey e.1) (values : KeyMap String) :
    readLines environment (entries.map fun e => .ok (entryLine e.1 e.2)) values =
      .ok (values.insertAll entries) := by
  induction entries generalizing values with
  | nil => rfl
  | cons e entries ih =>
    rw [List.map_cons, readLines, readLine_entryLine _ (h e List.mem_cons_self)]
    exact ih (fun d hd => h d (List.mem_cons_of_mem _ hd)) _

/-- A file that was written from a map is read as that map, under every process
environment. -/
theorem parse_render (environment : KeyMap String) {values : KeyMap String}
    (h : HasKeys values) : parse environment (.text (render values)) = .ok values := by
  rw [parse, logicalLines_render h, readLines_entryLines environment h]
  exact congrArg Except.ok (KeyMap.ofList_entries values)

end Provisioner.Dotenv
