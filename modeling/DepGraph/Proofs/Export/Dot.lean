import DepGraph.Export.Dot
import DepGraph.Proofs.Graph.Annotated
import DepGraph.Proofs.Text.Readers

/-!
# Drawings are read back

A reader of drawings first cuts the text into tokens. Between quotes a backslash takes away what the
next quote or backslash means, and everything else stands for itself, so only a quote that no
backslash takes away ends a text. Semicolons among the tokens then end statements, and commas end
attributes; those in texts are no tokens.

- `Scanner.step`, `tokens?`: the text in tokens.
- `statement?`, `read?`: the tokens as statements. What is no drawing of the one form is refused.
- `reads_quote`: a quoted text is one token, whatever it holds.
- `read?_drawing`: a drawing is read back as its statements.
- `Graph.Annotated.read_drawing`: these are the nodes and the edges of the graph, in strict order.
-/

namespace DepGraph

namespace Dot

open DepGraph.Text

/-! ## The tokens of a text -/

/-- A token: a plain word, a text that stood between quotes, an arrow or a mark. -/
inductive Token where
  | word (text : String)
  | text (text : String)
  | arrow
  | mark (c : Char)
  deriving Repr, DecidableEq

/-- Is it a character of words? -/
def isWordChar (c : Char) : Bool :=
  c.isAlphanum || c == '_'

/-- Is it a mark of its own? -/
def isMark (c : Char) : Bool :=
  ['\x7b', '\x7d', '[', ']', '=', ',', ';'].contains c

/-- Where a scanner is. Characters of a token are kept with the last one first. -/
inductive Place where
  /-- Between tokens. -/
  | between
  /-- After a dash, which the head of an arrow has to follow. -/
  | dash
  /-- In a word. -/
  | word (seen : List Char)
  /-- Between quotes. -/
  | quoted (seen : List Char)
  /-- Between quotes, after a backslash. -/
  | escaped (seen : List Char)
  deriving Repr, DecidableEq

/-- A scanner: where it is, and the tokens so far, with the last one first. -/
structure Scanner where
  place : Place := .between
  tokens : List Token := []

namespace Scanner

/-- Reads a character that begins something new. -/
def begin? (tokens : List Token) (c : Char) : Option Scanner :=
  if isWordChar c then some ⟨.word [c], tokens⟩
  else if c.isWhitespace then some ⟨.between, tokens⟩
  else if c = '"' then some ⟨.quoted [], tokens⟩
  else if c = '-' then some ⟨.dash, tokens⟩
  else if isMark c then some ⟨.between, .mark c :: tokens⟩
  else none

/-- Reads a character. -/
def step (s : Scanner) (c : Char) : Option Scanner :=
  match s.place with
  | .between => begin? s.tokens c
  | .dash => if c = '>' then some ⟨.between, .arrow :: s.tokens⟩ else none
  | .word seen =>
    if isWordChar c then some { s with place := .word (c :: seen) }
    else begin? (.word (String.ofList seen.reverse) :: s.tokens) c
  | .quoted seen =>
    if c = '"' then some ⟨.between, .text (String.ofList seen.reverse) :: s.tokens⟩
    else if c = '\\' then some { s with place := .escaped seen }
    else some { s with place := .quoted (c :: seen) }
  | .escaped seen =>
    if c = '"' ∨ c = '\\' then some { s with place := .quoted (c :: seen) }
    else some { s with place := .quoted (c :: '\\' :: seen) }

/-- The tokens, when there are no more characters. -/
def finish? (s : Scanner) : Option (List Token) :=
  match s.place with
  | .between => some s.tokens.reverse
  | .word seen => some (.word (String.ofList seen.reverse) :: s.tokens).reverse
  | .dash | .quoted _ | .escaped _ => none

end Scanner

/-- The tokens of a text. -/
def tokens? (text : List Char) : Option (List Token) :=
  (text.foldlM Scanner.step {}).bind Scanner.finish?

/-! ## The statements of tokens -/

/-- The value that a token stands for. -/
def Token.value? : Token → Option Value
  | .word w => some (.word w)
  | .text t => some (.text t)
  | .arrow | .mark _ => none

/-- The attribute that tokens stand for. -/
def attribute? : List Token → Option (String × Value)
  | [.word name, .mark '=', value] => value.value?.map (name, ·)
  | _ => none

/-- The attributes that tokens stand for: those between brackets, with commas between them. -/
def attributes? : List Token → Option (List (String × Value))
  | .mark '[' :: tokens =>
    if tokens.getLast? = some (.mark ']') then
      (tokens.dropLast.splitOn (.mark ',')).mapM attribute?
    else none
  | _ => none

/-- The statement that tokens stand for. -/
def statement? : List Token → Option Statement
  | .text source :: .arrow :: .text target :: tokens =>
    (attributes? tokens).map (.edge source target)
  | .text id :: tokens => (attributes? tokens).map (.node id)
  | _ => none

/-- The tokens before the first semicolon of a drawing. -/
def header : List Token :=
  [.word "digraph", .word "dependencies", .mark '\x7b', .word "rankdir", .mark '=', .word "LR"]

/-- Reads a drawing: the header, the statements, each with a semicolon after it, and a closing
brace. -/
def read? (text : List Char) : Option (List Statement) :=
  (tokens? text).bind fun tokens =>
    match tokens.splitOn (.mark ';') with
    | first :: rest =>
      if first = header ∧ rest.getLast? = some [.mark '\x7d'] then rest.dropLast.mapM statement?
      else none
    | [] => none

/-! ## Reading tokens -/

/-- Between tokens, the text is read as the tokens, and the scanner is between tokens again. -/
def Reads (text : List Char) (tokens : List Token) : Prop :=
  ∀ seen, text.foldlM Scanner.step ⟨.between, seen⟩ = some ⟨.between, tokens.reverse ++ seen⟩

theorem Reads.append {a b : List Char} {ts us : List Token} (ha : Reads a ts) (hb : Reads b us) :
    Reads (a ++ b) (ts ++ us) := by
  intro seen
  rw [foldlM_append_of_read (ha seen), hb, List.reverse_append, List.append_assoc]

/-- What is read from the start is all there is. -/
theorem Reads.tokens?_eq {text : List Char} {tokens : List Token} (h : Reads text tokens) :
    tokens? text = some tokens := by
  unfold tokens?
  rw [h []]
  simp [Scanner.finish?]

/-- A blank tells nothing. -/
theorem reads_blank : Reads [' '] [] := fun _ => rfl

/-- Marks stand for themselves. -/
theorem reads_mark {c : Char} (hmark : isMark c = true) : Reads [c] [.mark c] := by
  simp only [isMark, List.contains_eq_mem, List.mem_cons, List.not_mem_nil, or_false,
    decide_eq_true_eq] at hmark
  rcases hmark with rfl | rfl | rfl | rfl | rfl | rfl | rfl <;> exact fun _ => rfl

/-- Between quotes, escaped characters are read as what they were. -/
theorem foldlM_escape (text seen : List Char) (tokens : List Token) :
    (escape text).foldlM Scanner.step ⟨.quoted seen, tokens⟩ =
      some ⟨.quoted (text.reverse ++ seen), tokens⟩ := by
  induction text generalizing seen with
  | nil => rfl
  | cons c text ih =>
    have hc : (if c == '\\' || c == '"' then ['\\', c] else [c]).foldlM Scanner.step
        ⟨.quoted seen, tokens⟩ = some ⟨.quoted (c :: seen), tokens⟩ := by
      by_cases hescaped : c = '\\' ∨ c = '"'
      · rcases hescaped with rfl | rfl <;> rfl
      · simp only [not_or] at hescaped
        simp [hescaped, Scanner.step]
    rw [escape, List.flatMap_cons, foldlM_append_of_read hc]
    exact (ih (c :: seen)).trans (by simp)

/-- A quoted text is one token, whatever the text is. -/
theorem reads_quote (text : String) : Reads (quote text.toList) [.text text] := by
  intro seen
  have hopen : Scanner.step ⟨.between, seen⟩ '"' = some ⟨.quoted [], seen⟩ := rfl
  rw [quote, List.cons_append, foldlM_cons_of_step hopen,
    foldlM_append_of_read (foldlM_escape _ _ _)]
  simp [Scanner.step]

/-- Is the text a plain word? -/
def IsWord (w : String) : Prop :=
  w.toList ≠ [] ∧ w.toList.all isWordChar = true

instance (w : String) : Decidable (IsWord w) :=
  inferInstanceAs (Decidable (_ ∧ _))

theorem foldlM_wordChars (text : List Char) (htext : ∀ c ∈ text, isWordChar c = true)
    (seen : List Char) (tokens : List Token) :
    text.foldlM Scanner.step ⟨.word seen, tokens⟩ = some ⟨.word (text.reverse ++ seen), tokens⟩ := by
  induction text generalizing seen with
  | nil => rfl
  | cons c text ih =>
    obtain ⟨hc, htext⟩ := List.forall_mem_cons.mp htext
    have hstep : Scanner.step ⟨.word seen, tokens⟩ c = some ⟨.word (c :: seen), tokens⟩ := by
      simp [Scanner.step, hc]
    rw [foldlM_cons_of_step hstep, ih htext]
    simp

/-- A word ends where something else follows. -/
theorem reads_word {w : String} (hw : IsWord w) {c : Char} (hc : isWordChar c = false)
    {text : List Char} {tokens : List Token} (h : Reads (c :: text) tokens) :
    Reads (w.toList ++ c :: text) (.word w :: tokens) := by
  intro seen
  obtain ⟨hne, hchars⟩ := hw
  rw [List.all_eq_true] at hchars
  have hword : w.toList.foldlM Scanner.step ⟨.between, seen⟩ =
      some ⟨.word w.toList.reverse, seen⟩ := by
    cases hlist : w.toList with
    | nil => exact absurd hlist hne
    | cons first rest =>
      rw [hlist] at hchars
      obtain ⟨hfirst, hrest⟩ := List.forall_mem_cons.mp hchars
      have hstep : Scanner.step ⟨.between, seen⟩ first = some ⟨.word [first], seen⟩ := by
        simp [Scanner.step, Scanner.begin?, hfirst]
      rw [foldlM_cons_of_step hstep, foldlM_wordChars rest hrest, List.reverse_cons]
  -- the character after the word is read as if the word had ended before it
  have hend : Scanner.step ⟨.word w.toList.reverse, seen⟩ c =
      Scanner.step ⟨.between, .word w :: seen⟩ c := by
    simp [Scanner.step, hc]
  rw [foldlM_append_of_read hword, List.foldlM_cons, hend, ← List.foldlM_cons, h, List.reverse_cons,
    List.append_assoc, List.singleton_append]

/-! ## Reading attributes -/

/-- The token of a value. -/
def Value.token : Value → Token
  | .word w => .word w
  | .text t => .text t

/-- Plain values are words. -/
def Value.Proper : Value → Prop
  | .word w => IsWord w
  | .text _ => True

instance : DecidablePred Value.Proper
  | .word w => inferInstanceAs (Decidable (IsWord w))
  | .text _ => .isTrue trivial

theorem Value.value?_token (v : Value) : v.token.value? = some v := by
  cases v <;> rfl

theorem Value.token_ne_mark (v : Value) (c : Char) : v.token ≠ .mark c := by
  cases v <;> exact nofun

theorem Value.reads {v : Value} (hv : v.Proper) {c : Char} (hc : isWordChar c = false)
    {text : List Char} {tokens : List Token} (h : Reads (c :: text) tokens) :
    Reads (v.render ++ c :: text) (v.token :: tokens) := by
  cases v with
  | word w => exact reads_word hv hc h
  | text t => exact (reads_quote t).append h

/-- The tokens of an attribute. -/
def attributeTokens (a : String × Value) : List Token :=
  [.word a.1, .mark '=', a.2.token]

/-- Attributes have words for names, and proper values. -/
def ProperAttribute (a : String × Value) : Prop :=
  IsWord a.1 ∧ a.2.Proper

instance : DecidablePred ProperAttribute :=
  fun _ => inferInstanceAs (Decidable (_ ∧ _))

theorem reads_attribute {a : String × Value} (ha : ProperAttribute a) {c : Char}
    (hc : isWordChar c = false) {text : List Char} {tokens : List Token}
    (h : Reads (c :: text) tokens) :
    Reads (a.1.toList ++ '=' :: a.2.render ++ c :: text) (attributeTokens a ++ tokens) := by
  have hvalue : Reads ('=' :: (a.2.render ++ c :: text)) (.mark '=' :: a.2.token :: tokens) :=
    (reads_mark (by decide)).append (Value.reads ha.2 hc h)
  simpa [attributeTokens] using reads_word ha.1 (by decide) hvalue

/-- The tokens of attributes. -/
def attributesTokens (attributes : List (String × Value)) : List Token :=
  .mark '[' :: [.mark ','].intercalate (attributes.map attributeTokens) ++ [.mark ']']

theorem reads_attributes {attributes : List (String × Value)}
    (hproper : ∀ a ∈ attributes, ProperAttribute a) :
    Reads (renderAttributes attributes) (attributesTokens attributes) := by
  have hlist : Reads
      (", ".toList.intercalate (attributes.map fun a => a.1.toList ++ '=' :: a.2.render) ++ [']'])
      ([.mark ','].intercalate (attributes.map attributeTokens) ++ [.mark ']']) := by
    induction attributes with
    | nil => exact reads_mark (by decide)
    | cons a attributes ih =>
      obtain ⟨ha, hproper⟩ := List.forall_mem_cons.mp hproper
      cases attributes with
      | nil => simpa using reads_attribute ha (by decide) (reads_mark (c := ']') (by decide))
      | cons next attributes =>
        have hcomma := (reads_mark (c := ',') (by decide)).append (reads_blank.append (ih hproper))
        simpa [List.intercalate_cons_cons] using reads_attribute ha (by decide) hcomma
  exact (reads_mark (c := '[') (by decide)).append hlist

/-- Attributes are read back, if there are any. -/
theorem attributes?_attributesTokens {attributes : List (String × Value)} (hne : attributes ≠ []) :
    attributes? (attributesTokens attributes) = some attributes := by
  have hcomma : ∀ a ∈ attributes, Token.mark ',' ∉ attributeTokens a := fun a _ => by
    simp [attributeTokens, (a.2.token_ne_mark ',').symm]
  have hattribute : ∀ a ∈ attributes, attribute? (attributeTokens a) = some a := fun a _ => by
    simp [attributeTokens, attribute?, a.2.value?_token]
  rw [attributesTokens, List.cons_append, attributes?, if_pos List.getLast?_concat,
    List.dropLast_concat, mapM_splitOn_intercalate hne hcomma hattribute]

theorem semicolon_not_mem_attributesTokens (attributes : List (String × Value)) :
    Token.mark ';' ∉ attributesTokens attributes := by
  have hlist : Token.mark ';' ∉ [Token.mark ','].intercalate (attributes.map attributeTokens) := by
    refine not_mem_intercalate (by decide) (List.forall_mem_map.mpr fun a _ => ?_)
    simp [attributeTokens, (a.2.token_ne_mark ';').symm]
  simp [attributesTokens, hlist]

/-! ## Reading statements -/

namespace Statement

/-- The attributes of a statement. -/
def attributes : Statement → List (String × Value)
  | .node _ attributes | .edge _ _ attributes => attributes

/-- The tokens of a statement, without the semicolon. -/
def tokens : Statement → List Token
  | .node id attributes => .text id :: attributesTokens attributes
  | .edge source target attributes =>
    .text source :: .arrow :: .text target :: attributesTokens attributes

/-- A statement that a drawing can hold: it has attributes, which are proper ones. -/
structure Proper (s : Statement) : Prop where
  attributes_ne_nil : s.attributes ≠ []
  proper : ∀ a ∈ s.attributes, ProperAttribute a

theorem semicolon_not_mem_tokens (s : Statement) : Token.mark ';' ∉ s.tokens := by
  cases s <;> simp [tokens, semicolon_not_mem_attributesTokens]

/-- A statement takes a line, and its tokens are those of the statement and a semicolon. -/
theorem Proper.reads {s : Statement} (h : s.Proper) : Reads s.render (s.tokens ++ [.mark ';']) := by
  have hindent : Reads "  ".toList [] := fun _ => rfl
  have harrow : Reads " -> ".toList [.arrow] := fun _ => rfl
  have hend : Reads ";\n".toList [.mark ';'] := fun _ => rfl
  cases s with
  | node id attributes =>
    exact ((hindent.append (reads_quote id)).append
      (reads_blank.append (reads_attributes h.proper))).append hend
  | edge source target attributes =>
    exact ((((hindent.append (reads_quote source)).append harrow).append
      (reads_quote target)).append (reads_blank.append (reads_attributes h.proper))).append hend

/-- The tokens of a statement are read back. -/
theorem Proper.statement?_tokens {s : Statement} (h : s.Proper) :
    statement? s.tokens = some s := by
  have hattributes := attributes?_attributesTokens h.attributes_ne_nil
  cases s with
  | node id attributes => exact congrArg (Option.map (Statement.node id)) hattributes
  | edge source target attributes =>
    exact congrArg (Option.map (Statement.edge source target)) hattributes

end Statement

/-! ## Reading drawings -/

/-- Proper statements between the opening and the closing are read back. -/
theorem read?_of_proper {statements : List Statement} (h : ∀ s ∈ statements, s.Proper) :
    read? (opening ++ statements.flatMap Statement.render ++ closing) = some statements := by
  let pieces := header :: statements.map Statement.tokens
  have hbody : Reads (statements.flatMap Statement.render)
      ((statements.map Statement.tokens).flatMap (· ++ [.mark ';'])) := by
    induction statements with
    | nil => exact fun _ => rfl
    | cons s statements ih =>
      obtain ⟨hs, hstatements⟩ := List.forall_mem_cons.mp h
      exact hs.reads.append (ih hstatements)
  have hopening : Reads opening (header ++ [.mark ';']) := fun _ => rfl
  have hclosing : Reads closing [.mark '\x7d'] := fun _ => rfl
  have htokens : tokens? (opening ++ statements.flatMap Statement.render ++ closing) =
      some (pieces.flatMap (· ++ [.mark ';']) ++ [.mark '\x7d']) :=
    ((hopening.append hbody).append hclosing).tokens?_eq
  have hpieces : ∀ piece ∈ pieces ++ [[.mark '\x7d']], Token.mark ';' ∉ piece := by
    simp only [pieces, List.mem_append, List.mem_cons, List.mem_map, List.not_mem_nil, or_false]
    rintro piece ((rfl | ⟨s, -, rfl⟩) | rfl)
    · decide
    · exact s.semicolon_not_mem_tokens
    · decide
  have hstatements : (statements.map Statement.tokens).mapM statement? = some statements :=
    mapM_map_of_inverse fun s hs => (h s hs).statement?_tokens
  rw [read?, htokens, Option.bind_some, splitOn_ended hpieces]
  simp [pieces, hstatements]

theorem proper_ofNode (n : Node) : (ofNode n).Proper where
  attributes_ne_nil := by simp [ofNode, Statement.attributes]
  proper := by
    refine List.forall_mem_cons.mpr ⟨⟨(by decide : IsWord "label"), trivial⟩, ?_⟩
    cases n.cyclic <;> cases n.critical <;> decide

theorem proper_ofEdge (e : Edge) : (ofEdge e).Proper where
  attributes_ne_nil := by simp [ofEdge, Statement.attributes]
  proper := by
    refine List.forall_mem_cons.mpr ⟨⟨(by decide : IsWord "label"), trivial⟩, ?_⟩
    cases e.optional <;> cases e.dynamic <;> decide

/-- The drawing of any graph is read back as its statements. -/
theorem read?_drawing (g : Graph) : read? (drawing g) = some (statements g) := by
  refine read?_of_proper fun s hs => ?_
  rcases List.mem_append.mp hs with hs | hs
  · obtain ⟨n, -, rfl⟩ := List.mem_map.mp hs
    exact proper_ofNode n
  · obtain ⟨e, -, rfl⟩ := List.mem_map.mp hs
    exact proper_ofEdge e

/-! ## What a drawing tells -/

namespace Statement

/-- What the statement of a node tells: the identifier, the name, and whether the node is cyclic and
whether it is critical. -/
def node? : Statement → Option (String × String × Bool × Bool)
  | .node id (("label", .text name) :: attributes) =>
    some (id, name, attributes.contains ("color", .word "red"),
      attributes.contains ("penwidth", .word "2"))
  | _ => none

/-- What the statement of an edge tells: the key, whether the edge is dashed and whether it is
dotted. -/
def edge? : Statement → Option (EdgeKey × Bool × Bool)
  | .edge source target (("label", .text kind) :: attributes) =>
    (EdgeKind.ofName? kind).map (⟨source, target, ·⟩, attributes.contains ("style", .word "dashed"),
      attributes.contains ("style", .word "dotted"))
  | _ => none

end Statement

theorem node?_ofNode (n : Node) :
    (ofNode n).node? = some (n.id, n.name, n.cyclic, n.critical) := by
  unfold ofNode
  cases n.cyclic <;> cases n.critical <;> rfl

theorem edge?_ofEdge (e : Edge) :
    (ofEdge e).edge? = some (e.key, e.optional, e.dynamic && !e.optional) := by
  obtain ⟨source, target, kind, optional, dynamic, weight⟩ := e
  cases kind <;> cases optional <;> cases dynamic <;> rfl

/-- The statements of a graph tell of its nodes in order. -/
theorem filterMap_node?_statements (g : Graph) :
    (statements g).filterMap Statement.node? =
      g.nodes.map fun n => (n.id, n.name, n.cyclic, n.critical) := by
  have hedges : g.sortedEdges.filterMap (Statement.node? ∘ ofEdge) = [] :=
    List.filterMap_eq_nil_iff.mpr fun _ _ => rfl
  rw [statements, List.filterMap_append, List.filterMap_map, List.filterMap_map, hedges,
    List.append_nil, ← List.filterMap_eq_map]
  exact List.filterMap_congr fun n _ => node?_ofNode n

/-- The statements of a graph tell of its edges in order. -/
theorem filterMap_edge?_statements (g : Graph) :
    (statements g).filterMap Statement.edge? =
      g.sortedEdges.map fun e => (e.key, e.optional, e.dynamic && !e.optional) := by
  have hnodes : g.nodes.filterMap (Statement.edge? ∘ ofNode) = [] :=
    List.filterMap_eq_nil_iff.mpr fun _ _ => rfl
  rw [statements, List.filterMap_append, List.filterMap_map, List.filterMap_map, hnodes,
    List.nil_append, ← List.filterMap_eq_map]
  exact List.filterMap_congr fun e _ => edge?_ofEdge e

/-- Graphs with one drawing have the same statements. -/
theorem statements_eq_of_drawing_eq {g g' : Graph} (h : drawing g' = drawing g) :
    statements g' = statements g := by
  have hread := read?_drawing g'
  rw [h, read?_drawing] at hread
  exact (Option.some.inj hread).symm

end Dot

namespace Graph

open Dot

/-- **Drawings are read back.** Whatever the identifiers and the names are, the drawing of a graph is
read back as one statement for each node, in the strict order of identifiers, and then one for each
edge, in the strict order of keys. So graphs with one drawing have nodes of the same identifiers,
names and marks, and edges of the same keys, drawn alike. -/
theorem Annotated.read_drawing {g : Graph} (hg : g.Annotated) :
    read? (drawing g) = some
      ((g.nodes.map fun n => Statement.node n.id
        ([("label", .text n.name), ("shape", .word "box")] ++
          (if n.cyclic then
            [("style", .word "filled"), ("fillcolor", .text "#f8d7da"), ("color", .word "red")]
          else []) ++
          (if n.critical then [("penwidth", .word "2")] else []))) ++
      g.sortedEdges.map fun e => Statement.edge e.source e.target
        ([("label", .text e.kind.name)] ++
          (if e.optional then [("style", .word "dashed")]
          else if e.dynamic then [("style", .word "dotted")]
          else []))) ∧
    g.nodes.map (·.id) = g.nodeIds ∧ (g.nodes.Pairwise fun a b => a.id < b.id) ∧
    g.sortedEdges.Perm g.edges.toList ∧
    (g.sortedEdges.Pairwise fun a b => EdgeKey.order a.key b.key = .lt) ∧
    ∀ g' : Graph, drawing g' = drawing g →
      (g'.nodes.map fun n => (n.id, n.name, n.cyclic, n.critical)) =
        (g.nodes.map fun n => (n.id, n.name, n.cyclic, n.critical)) ∧
      (g'.sortedEdges.map fun e => (e.key, e.optional, e.dynamic && !e.optional)) =
        g.sortedEdges.map fun e => (e.key, e.optional, e.dynamic && !e.optional) := by
  refine ⟨read?_drawing g, hg.identified.map_id_nodes, hg.identified.pairwise_nodes,
    sortedEdges_perm g, hg.keyed.pairwise_sortedEdges, fun g' hdrawing => ?_⟩
  have hsame := statements_eq_of_drawing_eq hdrawing
  rw [← filterMap_node?_statements, ← filterMap_node?_statements, ← filterMap_edge?_statements,
    ← filterMap_edge?_statements, hsame]
  exact ⟨rfl, rfl⟩

/-- A cyclic node whose identifier ends in a backslash and whose name looks like the rest of a
statement, and a critical node of the empty identifier, each depending on the other. -/
def quoted : Graph :=
  let g := (({} : Graph).addNode
    { id := "a\\", name := "a\"];\n\"b\" -> \"", kind := .file, source := "" }).addNode
    { id := "", name := "\\\"", kind := .file, source := "" }
  let g := (g.addEdge { source := "", target := "a\\", kind := .uses, dynamic := true }).addEdge
    { source := "a\\", target := "", kind := .imports, optional := true, dynamic := true }
  (g.modifyNode "a\\" fun n => { n with cyclic := true }).modifyNode ""
    fun n => { n with critical := true }

theorem annotated_quoted : quoted.Annotated := by
  unfold quoted
  refine .modifyNode "" (fun _ => rfl) ?_
  refine .modifyNode "a\\" (fun _ => rfl) ?_
  exact (((Annotated.empty default).addNode _).addNode _ |>.addEdge _).addEdge _

/-- The names come back as they were, and so do the marks. -/
theorem read_drawing_quoted :
    quoted.Annotated ∧
    read? (drawing quoted) = some
      [.node "" [("label", .text "\\\""), ("shape", .word "box"), ("penwidth", .word "2")],
        .node "a\\" [("label", .text "a\"];\n\"b\" -> \""), ("shape", .word "box"),
          ("style", .word "filled"), ("fillcolor", .text "#f8d7da"), ("color", .word "red")],
        .edge "" "a\\" [("label", .text "uses"), ("style", .word "dotted")],
        .edge "a\\" "" [("label", .text "imports"), ("style", .word "dashed")]] := by
  obtain ⟨hread, -⟩ := Annotated.read_drawing annotated_quoted
  have hsorted : quoted.sortedEdges = quoted.edges.toList :=
    List.mergeSort_of_pairwise (by decide +kernel)
  refine ⟨annotated_quoted, ?_⟩
  rw [hread, hsorted]
  decide +kernel

end Graph

end DepGraph
