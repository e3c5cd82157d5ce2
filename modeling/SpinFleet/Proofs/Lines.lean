import SpinFleet.Proofs.Spelling
/-!
# Lines — headers and entries are read back

From keys and values to whole texts: a path is read back, a header and an entry each take their line, and the tables of
a document are read as the sections they were written for (`Reader.read?_document`).

What a piece of text is read as does not depend on what follows it.  For complete lines this is `Reads`, so that texts
are put together with `Reads.append`; for parts of a line it holds of what may follow there.
-/
namespace SpinFleet.Toml.Reader

variable {cs rest : List Char} {c : Char}

/-! ## Keys with dots -/

theorem ne_of_isStart (h : isStart c) {x : Char} (hx : isStart x = false) : c ≠ x := by
  rintro rfl
  rw [h] at hx
  cases hx

theorem skipBlanks_start (h : isStart c) : skipBlanks (c :: cs) = c :: cs := by
  have hblank : isBlank c = false := by
    simp [isBlank, ne_of_isStart h (x := ' ') (by decide), ne_of_isStart h (x := '\t') (by decide)]
  rw [skipBlanks, List.dropWhile_cons_of_neg (by simp [hblank])]

theorem stops_cons (h : isStart c = false) : Stops (c :: rest) := by
  intro x hx
  cases hx
  exact h

theorem key?_skipBlanks (k : String) (h : Stops rest) : key? (skipBlanks (key k ++ rest)) = some (k, rest) := by
  obtain ⟨c, cs, hk, hc⟩ := key_cons k
  have hskip : skipBlanks (key k ++ rest) = key k ++ rest := by
    rw [hk, List.cons_append, skipBlanks_start hc]
  rw [hskip, key?_key k h]

theorem path?_last (k : String) (h : Stops rest) (hdot : ∀ r, skipBlanks rest ≠ '.' :: r) :
    path? (key k ++ rest) = some ([k], skipBlanks rest) := by
  rw [path?, key?_skipBlanks k h]
  simp only [Option.bind_eq_bind, Option.bind_some]
  rfl

theorem path?_dot (k : String) {ks : List String} {rest' : List Char} (h : path? rest = some (ks, rest')) :
    path? (key k ++ '.' :: rest) = some (k :: ks, rest') := by
  rw [path?, key?_skipBlanks k (stops_cons (by decide))]
  have hskip : skipBlanks ('.' :: rest) = '.' :: rest := rfl
  have hlt : rest.length < (key k).length + (rest.length + 1) := by omega
  simp [hskip, hlt, h]

/-- **A path is read back.** -/
theorem path?_keys (ks : List String) (hks : ks ≠ []) (h : Stops rest) (hdot : ∀ r, skipBlanks rest ≠ '.' :: r) :
    path? (['.'].intercalate (ks.map key) ++ rest) = some (ks, skipBlanks rest) := by
  induction ks with
  | nil => exact absurd rfl hks
  | cons k ks ih =>
    cases ks with
    | nil => simpa using path?_last k h hdot
    | cons k' ks =>
      have hpath := path?_dot k (ih (by simp))
      simpa [List.intercalate_cons_cons] using hpath

theorem path_cons (ks : List String) (hks : ks ≠ []) :
    ∃ c cs, ['.'].intercalate (ks.map key) = c :: cs ∧ isStart c := by
  cases ks with
  | nil => exact absurd rfl hks
  | cons k ks =>
    obtain ⟨c, cs, hk, hc⟩ := key_cons k
    cases ks with
    | nil => exact ⟨c, cs, by simp [hk], hc⟩
    | cons k' ks => exact ⟨c, cs ++ ['.'] ++ ['.'].intercalate ((k' :: ks).map key), by simp [hk], hc⟩

/-! ## Statements -/

theorem statement?_listHeader (ks : List String) (hks : ks ≠ []) :
    statement? (listHeader ks ++ rest) = some (.header true ks, rest) := by
  have hpath : path? (['.'].intercalate (ks.map key) ++ ']' :: ']' :: rest) = some (ks, ']' :: ']' :: rest) :=
    path?_keys ks hks (stops_cons (by decide)) fun r h => by cases h
  simp [listHeader, statement?, hpath]

theorem statement?_tableHeader (ks : List String) (hks : ks ≠ []) :
    statement? (tableHeader ks ++ rest) = some (.header false ks, rest) := by
  have hpath : path? (['.'].intercalate (ks.map key) ++ ']' :: rest) = some (ks, ']' :: rest) :=
    path?_keys ks hks (stops_cons (by decide)) fun r h => by cases h
  obtain ⟨c, cs, hcs, hc⟩ := path_cons ks hks
  have hbracket : c ≠ '[' := ne_of_isStart hc (by decide)
  rw [hcs, List.cons_append] at hpath
  simp [tableHeader, statement?, hcs, hpath, hbracket]

theorem statement?_entry (k v : String) :
    statement? (key k ++ ' ' :: '=' :: ' ' :: (value v ++ '\n' :: rest)) = some (.entry k v, '\n' :: rest) := by
  have hpath : path? (key k ++ ' ' :: '=' :: ' ' :: (value v ++ '\n' :: rest)) =
      some ([k], '=' :: ' ' :: (value v ++ '\n' :: rest)) :=
    path?_last k (stops_cons (by decide)) fun r h => by cases h
  have hskip : skipBlanks (' ' :: (value v ++ '\n' :: rest)) = value v ++ '\n' :: rest := by
    obtain ⟨c, cs, hv, hc⟩ := value_cons v
    rw [hv]
    exact skipBlanks_start hc
  have hvalue : string? (value v ++ '\n' :: rest) = some (v, '\n' :: rest) := string?_value v (stops_cons (by decide))
  obtain ⟨c, cs, hk, hc⟩ := key_cons k
  have hbracket : c ≠ '[' := ne_of_isStart hc (by decide)
  rw [hk, List.cons_append] at hpath ⊢
  simp [statement?, hbracket, hpath, hskip, hvalue]

/-! ## Lines -/

/-- Lines that are read as some statements, whatever follows them. -/
def Reads (w : List Char) (ss : List Statement) : Prop :=
  ∀ rest, statements? (w ++ rest) = (statements? rest).map (ss ++ ·)

theorem Reads.nil : Reads [] [] := fun rest => by simp

theorem Reads.append {w w' : List Char} {ss ss' : List Statement} (h : Reads w ss) (h' : Reads w' ss') :
    Reads (w ++ w') (ss ++ ss') := by
  intro rest
  rw [List.append_assoc, h, h', Option.map_map]
  simp [Function.comp_def]

theorem Reads.blank : Reads ['\n'] [] := by
  intro rest
  have hline : lineEnd? ('\n' :: rest) = some rest := rfl
  rw [List.singleton_append, statements?]
  simp [hline]

theorem Reads.line {w : List Char} {s : Statement} (hw : ∃ c cs, w = c :: cs ∧ (isStart c ∨ c = '['))
    (h : ∀ rest, statement? (w ++ '\n' :: rest) = some (s, '\n' :: rest)) : Reads (w ++ ['\n']) [s] := by
  intro rest
  obtain ⟨c, cs, rfl, hc⟩ := hw
  have hskip : skipBlanks (c :: (cs ++ '\n' :: rest)) = c :: (cs ++ '\n' :: rest) := by
    rcases hc with hc | rfl
    · exact skipBlanks_start hc
    · rfl
  have hnone : lineEnd? (c :: (cs ++ '\n' :: rest)) = none := by
    have hne {x : Char} (hx : isStart x = false) (hx' : '[' ≠ x) : c ≠ x := by
      rcases hc with hc | rfl
      · exact ne_of_isStart hc hx
      · exact hx'
    have hend : newline? (c :: (cs ++ '\n' :: rest)) = none := newline?_eq_none fun x hx => by
      cases hx
      exact ⟨hne (by decide) (by decide), hne (by decide) (by decide)⟩
    have hcomment : c ≠ '#' := hne (by decide) (by decide)
    rw [lineEnd?, hskip]
    simp [hcomment, hend]
  have hs : statement? (c :: (cs ++ '\n' :: rest)) = some (s, '\n' :: rest) := h rest
  have hline : lineEnd? ('\n' :: rest) = some rest := rfl
  have hlt : rest.length < (c :: (cs ++ '\n' :: rest)).length := by
    rw [List.length_cons, List.length_append, List.length_cons]
    omega
  rw [List.append_assoc, List.singleton_append, List.cons_append, statements?, hnone, hskip]
  simp only [List.isEmpty_cons, Bool.false_eq_true, if_false, hs, hline, if_pos hlt, Option.bind_eq_bind,
    Option.bind_some]
  cases statements? rest <;> rfl

/-! ## Sections -/

def Section.table (s : Section) : Table := ⟨if s.item then listHeader s.path else tableHeader s.path, s.entries⟩

def Section.statements (s : Section) : List Statement :=
  .header s.item s.path :: s.entries.map fun e => .entry e.1 e.2

theorem Reads.entry (e : String × String) : Reads (Toml.entry e) [.entry e.1 e.2] := by
  obtain ⟨c, cs, hk, hc⟩ := key_cons e.1
  have hline : Reads (key e.1 ++ ' ' :: '=' :: ' ' :: value e.2 ++ ['\n']) [.entry e.1 e.2] :=
    .line ⟨c, cs ++ ' ' :: '=' :: ' ' :: value e.2, by simp [hk], .inl hc⟩ fun rest => by
      simp [statement?_entry]
  simpa [Toml.entry] using hline

theorem Reads.header (item : Bool) (path : List String) (hpath : path ≠ []) :
    Reads ((if item then listHeader path else tableHeader path) ++ ['\n']) [.header item path] := by
  cases item with
  | true => exact .line ⟨_, _, rfl, .inr rfl⟩ fun rest => statement?_listHeader path hpath
  | false => exact .line ⟨_, _, rfl, .inr rfl⟩ fun rest => statement?_tableHeader path hpath

theorem Reads.entries : ∀ es : List (String × String),
    Reads (es.map Toml.entry).flatten (es.map fun e => .entry e.1 e.2)
  | [] => .nil
  | e :: es => (Reads.entry e).append (Reads.entries es)

/-- **A table is read back** as its header and its entries. -/
theorem Reads.table (s : Section) (hpath : s.path ≠ []) : Reads s.table.write s.statements :=
  (Reads.header s.item s.path hpath).append (Reads.entries s.entries)

theorem Reads.tables (ss : List Section) (hpaths : ∀ s ∈ ss, s.path ≠ []) :
    Reads (['\n'].intercalate (ss.map fun s => s.table.write)) (ss.flatMap Section.statements) := by
  induction ss with
  | nil => exact .nil
  | cons s ss ih =>
    obtain ⟨hs, hss⟩ := List.forall_mem_cons.1 hpaths
    cases ss with
    | nil => simpa using Reads.table s hs
    | cons s' ss => simpa using ((Reads.table s hs).append .blank).append (ih hss)

theorem sections_entries (es : List (String × String)) (ss : List Statement) :
    sections (es.map (fun e => .entry e.1 e.2) ++ ss) = (es ++ (sections ss).1, (sections ss).2) := by
  induction es with
  | nil => rfl
  | cons e es ih => rw [List.map_cons, List.cons_append, sections, ih, List.cons_append]

theorem sections_statements : ∀ ss : List Section, sections (ss.flatMap Section.statements) = ([], ss)
  | [] => rfl
  | s :: ss => by
    rw [List.flatMap_cons, Section.statements, List.cons_append, sections, sections_entries, sections_statements ss,
      List.append_nil]

/-- **A document is read as the sections that it was written for.** -/
theorem read?_document (ss : List Section) (hpaths : ∀ s ∈ ss, s.path ≠ []) :
    read? (document (ss.map Section.table)) = (placeAll? ss []).map fun ms => .object (memberValues ms) := by
  have hstatements : statements? (document (ss.map Section.table)).toList = some (ss.flatMap Section.statements) := by
    have hread := Reads.tables ss hpaths []
    rw [List.append_nil, show statements? [] = some [] by rw [statements?]; rfl, Option.map_some, List.append_nil]
      at hread
    rw [document, String.toList_ofList, List.map_map]
    exact hread
  rw [read?, hstatements]
  simp [sections_statements, fill?, Option.map_eq_bind]

end SpinFleet.Toml.Reader
