import DepGraph.Export.Csv
import DepGraph.Proofs.Graph.Assembled
import DepGraph.Proofs.Text.Readers
import DepGraph.Text.Pieces

/-!
# Tables are read back

A reader of tables goes over the characters once. Outside quotes a comma ends a field and a line
feed, which a carriage return may precede, ends a record; between quotes every character stands for
itself, and a quote is written twice. Whether a field stands between quotes is decided for each
field alone, and yet no field runs into the next one.

- `Reader.step`, `read?`: the reader. It refuses a quote in the middle of a field, text after a
  quoted field and a quote that is not closed.
- `foldlM_field`: a written field is read back whole.
- `read?_flatMap_record`: written records are read back, unless one ends in a bare carriage return.
- `return_not_mem_plain`: no number does.
- `Graph.Assembled.read_table`: the table of a graph is read back as its edges in strict order.
-/

namespace DepGraph

namespace Csv

open DepGraph.Text

/-! ## The reader -/

/-- Where a reader of a table is. -/
inductive Place where
  /-- At the start of a field. -/
  | fresh
  /-- In a field without quotes. -/
  | bare
  /-- Between the quotes of a field. -/
  | quoted
  /-- After a quote between quotes, which ends the field unless another one follows. -/
  | closing
  /-- After a quoted field and a carriage return. -/
  | returned
  deriving Repr, DecidableEq

/-- A reader of a table: the characters of the field, the fields of the record and the records so
far, each with the last one first. -/
structure Reader where
  place : Place := .fresh
  field : List Char := []
  fields : List String := []
  records : List (List String) := []

namespace Reader

/-- The reader with one more character of the field. -/
def keep (r : Reader) (place : Place) (c : Char) : Reader :=
  { r with place, field := c :: r.field }

/-- The reader after the end of a field. -/
def endField (r : Reader) : Reader :=
  { r with place := .fresh, field := [], fields := String.ofList r.field.reverse :: r.fields }

/-- The reader after the end of a record. -/
def endRecord (r : Reader) : Reader :=
  { r.endField with fields := [], records := r.endField.fields.reverse :: r.records }

/-- Reads a character. -/
def step (r : Reader) (c : Char) : Option Reader :=
  match r.place with
  | .fresh | .bare =>
    if c = ',' then some r.endField
    else if c = '\n' then some { r with field := dropReturn r.field }.endRecord
    else if c ≠ '"' then some (r.keep .bare c)
    else if r.place = .fresh then some { r with place := .quoted }
    else none
  | .quoted => if c = '"' then some { r with place := .closing } else some (r.keep .quoted c)
  | .closing =>
    if c = '"' then some (r.keep .quoted c)
    else if c = ',' then some r.endField
    else if c = '\n' then some r.endRecord
    else if c = '\r' then some { r with place := .returned }
    else none
  | .returned => if c = '\n' then some r.endRecord else none

/-- The records, when there are no more characters. -/
def finish? (r : Reader) : Option (List (List String)) :=
  match r.place with
  | .fresh => some (if r.fields = [] then r.records else r.endRecord.records).reverse
  | .bare | .closing => some r.endRecord.records.reverse
  | .quoted | .returned => none

end Reader

/-- Reads a table. -/
def read? (text : List Char) : Option (List (List String)) :=
  (text.foldlM Reader.step {}).bind Reader.finish?

/-! ## Reading a field -/

section Fields

variable {fields : List String} {records : List (List String)}

/-- Characters that need no quotes are kept. -/
theorem foldlM_bare (text : List Char) (hplain : needsQuotes text = false) (place : Place)
    (hplace : place = .fresh ∨ place = .bare) (seen : List Char) :
    text.foldlM Reader.step ⟨place, seen, fields, records⟩ =
      some ⟨if text = [] then place else .bare, text.reverse ++ seen, fields, records⟩ := by
  induction text generalizing place seen with
  | nil => rfl
  | cons c text ih =>
    simp only [needsQuotes, List.any_cons, Bool.or_eq_false_iff, beq_eq_false_iff_ne] at hplain
    obtain ⟨⟨⟨hcomma, hquote⟩, hfeed⟩, htext⟩ := hplain
    have hstep : Reader.step ⟨place, seen, fields, records⟩ c =
        some ⟨.bare, c :: seen, fields, records⟩ := by
      rcases hplace with rfl | rfl <;> simp [Reader.step, Reader.keep, hcomma, hquote, hfeed]
    rw [foldlM_cons_of_step hstep, ih htext _ (.inr rfl)]
    simp

/-- Between quotes, doubled quotes are read as one and everything else as it stands. -/
theorem foldlM_doubleQuotes (text seen : List Char) :
    (doubleQuotes text).foldlM Reader.step ⟨.quoted, seen, fields, records⟩ =
      some ⟨.quoted, text.reverse ++ seen, fields, records⟩ := by
  induction text generalizing seen with
  | nil => rfl
  | cons c text ih =>
    have hc : (if c == '"' then ['"', '"'] else [c]).foldlM Reader.step
        ⟨.quoted, seen, fields, records⟩ = some ⟨.quoted, c :: seen, fields, records⟩ := by
      by_cases h : c = '"'
      · subst h
        rfl
      · simp [h, Reader.step, Reader.keep]
    rw [doubleQuotes, List.flatMap_cons, foldlM_append_of_read hc]
    exact (ih (c :: seen)).trans (by simp)

/-- A field that stands between quotes. -/
theorem foldlM_quoted (text : List Char) :
    ('"' :: doubleQuotes text ++ ['"']).foldlM Reader.step ⟨.fresh, [], fields, records⟩ =
      some ⟨.closing, text.reverse, fields, records⟩ := by
  have hopen : Reader.step ⟨.fresh, [], fields, records⟩ '"' =
      some ⟨.quoted, [], fields, records⟩ := rfl
  rw [List.cons_append, foldlM_cons_of_step hopen,
    foldlM_append_of_read (foldlM_doubleQuotes text []), List.append_nil]
  rfl

/-- A written field is read back whole, and a comma or a line feed may follow. Where no quotes
protect its end, the field must not end in a carriage return before a line feed. -/
theorem foldlM_field (text : List Char) :
    ∃ r, (field text).foldlM Reader.step ⟨.fresh, [], fields, records⟩ = some r ∧
      r.step ',' = some ⟨.fresh, [], String.ofList text :: fields, records⟩ ∧
      ('\r' ∉ text → r.step '\n' =
        some ⟨.fresh, [], [], (String.ofList text :: fields).reverse :: records⟩) := by
  unfold field
  cases hquotes : needsQuotes text with
  | true =>
    refine ⟨_, foldlM_quoted text, ?_, fun _ => ?_⟩ <;>
      simp [Reader.step, Reader.endField, Reader.endRecord]
  | false =>
    refine ⟨_, foldlM_bare text hquotes .fresh (.inl rfl) [], ?_, fun hreturn => ?_⟩
    · cases text <;> simp [Reader.step, Reader.endField]
    · have hkept : dropReturn text.reverse = text.reverse := by
        unfold dropReturn
        split
        · next hlast =>
          exact absurd (List.mem_reverse.mp (hlast ▸ List.mem_cons_self)) hreturn
        · rfl
      cases text <;> simp_all [Reader.step, Reader.endField, Reader.endRecord]

end Fields

/-! ## Reading records -/

/-- A written record is read back, unless its last field ends in a bare carriage return. -/
theorem foldlM_record (texts : List String) (hne : texts ≠ [])
    (hlast : ∀ text ∈ texts.getLast?, '\r' ∉ text.toList) (before : List String)
    (records : List (List String)) :
    (record (texts.map String.toList)).foldlM Reader.step ⟨.fresh, [], before, records⟩ =
      some ⟨.fresh, [], [], (before.reverse ++ texts) :: records⟩ := by
  induction texts generalizing before with
  | nil => exact absurd rfl hne
  | cons text texts ih =>
    obtain ⟨r, hfield, hcomma, hfeed⟩ := @foldlM_field before records text.toList
    rw [String.ofList_toList] at hcomma hfeed
    cases texts with
    | nil =>
      -- the last field of the record, which a line feed follows
      have hreturn : '\r' ∉ text.toList := hlast text (by simp)
      simp [record, hfield, hfeed hreturn]
    | cons next texts =>
      have hrest := ih (List.cons_ne_nil next texts) (by simpa using hlast) (text :: before)
      simp only [record, List.map_cons, List.intercalate_cons_cons, List.append_assoc] at hrest ⊢
      rw [foldlM_append_of_read hfield, List.singleton_append, foldlM_cons_of_step hcomma, hrest,
        List.reverse_cons, List.append_assoc, List.singleton_append]

/-- Written records are read back. -/
theorem read?_flatMap_record (rows : List (List String))
    (hrows : ∀ row ∈ rows, row ≠ [] ∧ ∀ text ∈ row.getLast?, '\r' ∉ text.toList) :
    read? (rows.flatMap fun row => record (row.map String.toList)) = some rows := by
  have hfold : ∀ (rows : List (List String)),
      (∀ row ∈ rows, row ≠ [] ∧ ∀ text ∈ row.getLast?, '\r' ∉ text.toList) → ∀ records,
        (rows.flatMap fun row => record (row.map String.toList)).foldlM Reader.step
          ⟨.fresh, [], [], records⟩ = some ⟨.fresh, [], [], rows.reverse ++ records⟩ := by
    intro rows
    induction rows with
    | nil => exact fun _ _ => rfl
    | cons row rows ih =>
      intro hrows records
      obtain ⟨⟨hne, hlast⟩, hrest⟩ := List.forall_mem_cons.mp hrows
      rw [List.flatMap_cons, foldlM_append_of_read (foldlM_record row hne hlast _ _), ih hrest]
      simp
  have hread := hfold rows hrows []
  unfold read?
  rw [hread]
  simp [Reader.finish?]

/-! ## Numbers in tables -/

/-- A number without an exponent holds digits and a point. -/
theorem return_not_mem_positionalText (s : Decimal.Scientific) :
    '\r' ∉ (Decimal.positionalText .plain s).toList := by
  have hdigits : '\r' ∉ Nat.toDigits 10 s.digits := fun hmem =>
    absurd (Nat.isDigit_of_mem_toDigits (by decide) (by decide) hmem) (by decide)
  have hzeros : ∀ n, '\r' ∉ List.replicate n '0' := fun n hmem =>
    absurd (List.eq_of_mem_replicate hmem) (by decide)
  unfold Decimal.positionalText
  dsimp only
  split
  · simp [Decimal.Layout.plain, hdigits, hzeros]
  · have hpadded : ∀ n, '\r' ∉ List.replicate n '0' ++ Nat.toDigits 10 s.digits := fun n =>
      List.not_mem_append (hzeros n) hdigits
    simp only [String.toList_append, String.toList_ofList, List.mem_append, not_or]
    exact ⟨⟨mt List.mem_of_mem_take (hpadded _), by decide⟩, mt List.mem_of_mem_drop (hpadded _)⟩

theorem return_not_mem_plain (x : Float) : '\r' ∉ (Decimal.plain x).toList := by
  unfold Decimal.plain Decimal.Layout.write
  split
  · decide
  · next negative _ =>
    cases negative <;> decide
  · next negative _ _ _ _ =>
    show '\r' ∉ ((if negative then "-" else "") ++ Decimal.positionalText .plain _).toList
    rw [String.toList_append]
    refine List.not_mem_append ?_ (return_not_mem_positionalText _)
    cases negative <;> decide

/-! ## The table of a graph -/

/-- What is written of an edge names its key. -/
theorem key_eq_of_fields_eq {e e' : Edge} (h : fields e = fields e') : e.key = e'.key := by
  have hkind : ∀ a b : EdgeKind, a.name = b.name → a = b := by
    intro a b
    cases a <;> cases b <;> decide
  simp only [fields, List.cons.injEq] at h
  obtain ⟨hsource, htarget, hname, -⟩ := h
  rw [Edge.key, Edge.key, hsource, htarget, hkind e.kind e'.kind hname]

theorem map_key_eq_of_map_fields_eq :
    ∀ {es es' : List Edge}, es.map fields = es'.map fields → es.map Edge.key = es'.map Edge.key
  | [], [], _ => rfl
  | [], _ :: _, h => by simp at h
  | _ :: _, [], h => by simp at h
  | e :: es, e' :: es', h => by
    obtain ⟨hfields, hrest⟩ := List.cons.inj h
    rw [List.map_cons, List.map_cons, key_eq_of_fields_eq hfields,
      map_key_eq_of_map_fields_eq hrest]

/-- The table of any graph is read back as its headings and what is written of its edges. -/
theorem read?_table (g : Graph) : read? (table g) = some (records g) := by
  refine read?_flatMap_record _ fun row hrow => ?_
  rcases List.mem_cons.mp hrow with rfl | hrow
  · exact ⟨by decide, by decide⟩
  · obtain ⟨e, -, rfl⟩ := List.mem_map.mp hrow
    refine ⟨List.cons_ne_nil _ _, ?_⟩
    -- the last field is the weight
    rintro text ⟨⟩
    exact return_not_mem_plain e.weight

end Csv

namespace Graph

open Csv

/-- **Tables lose nothing.** The table of a graph is read back as the headings and one record of
five fields for each edge, whatever the identifiers are, and the keys of the edges ascend strictly.
So graphs with one table have the same keys. -/
theorem Assembled.read_table {g : Graph} (hg : g.Assembled) :
    read? (table g) = some (["from", "to", "type", "optional", "weight"] ::
      g.sortedEdges.map fun e =>
        [e.source, e.target, e.kind.name, if e.optional then "true" else "false",
          Decimal.plain e.weight]) ∧
    g.sortedEdges.Perm g.edges.toList ∧ g.sortedEdges.length = g.edgeCount ∧
    (g.sortedEdges.Pairwise fun a b => EdgeKey.order a.key b.key = .lt) ∧
    ∀ g' : Graph, table g' = table g → g'.edgeKeys = g.edgeKeys := by
  have hperm := sortedEdges_perm g
  refine ⟨?_, hperm, hperm.length_eq, hg.keyed.pairwise_sortedEdges, ?_⟩
  · rw [read?_table, records]
    refine congrArg (fun rows => some (headings :: rows)) (List.map_congr_left fun e _ => ?_)
    unfold fields
    cases e.optional <;> rfl
  · intro g' htable
    have hread := read?_table g'
    rw [htable, read?_table, Option.some.injEq, records, records, List.cons.injEq] at hread
    rw [← map_key_sortedEdges, ← map_key_sortedEdges, map_key_eq_of_map_fields_eq hread.2]

/-- Two edges between identifiers that hold what ends fields and records. A node names neighbours
that no edge bears out. -/
def awkward : Graph :=
  let g := (({} : Graph).addNode
    { id := "a,\"b\"\r\n", name := "a", kind := .file, source := "", dependents := #["c"] }).addNode
    { id := "", name := "b", kind := .file, source := "" }
  (g.addEdge { source := "", target := "a,\"b\"\r\n", kind := .uses, optional := true }).addEdge
    { source := "a,\"b\"\r\n", target := "", kind := .imports, weight := 2.5 }

theorem assembled_awkward : awkward.Assembled :=
  (((Assembled.empty default).addNode _).addNode _ |>.addEdge _).addEdge _

/-- A node without edges. -/
def lonely : Node := { id := "c", name := "c", kind := .file, source := "" }

/-- Commas, quotes and line ends in identifiers come back as they were. A node more does not show in
the table, and does not change the keys. -/
theorem read_table_awkward :
    awkward.Assembled ∧
    read? (table awkward) = some
      [["from", "to", "type", "optional", "weight"],
        ["", "a,\"b\"\r\n", "uses", "true", "1"],
        ["a,\"b\"\r\n", "", "imports", "false", "2.5"]] ∧
    table (awkward.addNode lonely) = table awkward ∧
    (awkward.addNode lonely).edgeKeys = awkward.edgeKeys := by
  obtain ⟨hread, -, -, -, hkeys⟩ := Assembled.read_table assembled_awkward
  have htable : table (awkward.addNode lonely) = table awkward := by
    unfold table records sortedEdges
    rw [edges_addNode]
  have hsorted : awkward.sortedEdges = awkward.edges.toList :=
    List.mergeSort_of_pairwise (by decide +kernel)
  refine ⟨assembled_awkward, ?_, htable, hkeys _ htable⟩
  rw [hread, hsorted]
  decide +kernel

end Graph

end DepGraph
