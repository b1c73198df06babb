import Std.Data.String.ToNat
import DepGraph.Export.Mermaid
import DepGraph.Proofs.Graph.Annotated
import DepGraph.Proofs.Text.Readers

/-!
# Numbered drawings are read back

In a drawing that numbers the nodes, an edge names its ends by their numbers, and an edge of which
an end has no number would be left out without a word. There is none: both ends of every edge are
nodes. A reader cuts the text into tokens, where nothing between quotes ends anything but a quote,
and no label holds one, so the lines come back whatever the identifiers are.

- `Scanner.step`, `tokens?`: the text in tokens.
- `shown?`, `read?`: the tokens as lines.
- `read?_drawing`: a drawing is read back as what its lines show.
- `getElem?_numbering`: the number of a node is its place in the order of identifiers.
- `idOf?_nodeName`: a name stands for the identifier in its place.
- `Graph.Annotated.read_lines`: the lines are the nodes, the edges and the cyclic nodes of a graph.
-/

namespace DepGraph

namespace Mermaid

open DepGraph.Text

/-! ## The tokens of a text -/

/-- A token: a word, a text that stood between quotes, or a mark. Line feeds are marks. -/
inductive Token where
  | word (text : String)
  | text (text : String)
  | mark (c : Char)
  deriving Repr, DecidableEq

/-- Is it a mark of its own? -/
def isMark (c : Char) : Bool :=
  ['[', ']', '|', ',', '\n'].contains c

/-- Does the character end words? -/
def isSeparator (c : Char) : Bool :=
  c == ' ' || c == '"' || isMark c

/-- Where a scanner is. Characters of a token are kept with the last one first. -/
inductive Place where
  /-- In a word, or between tokens if nothing of a word has been seen. -/
  | outside (seen : List Char)
  /-- Between quotes. -/
  | quoted (seen : List Char)
  deriving Repr, DecidableEq

/-- A scanner: where it is, and the tokens so far, with the last one first. -/
structure Scanner where
  place : Place := .outside []
  tokens : List Token := []

namespace Scanner

/-- The tokens with the word that ends here, if there is one. -/
def endWord (seen : List Char) (tokens : List Token) : List Token :=
  if seen = [] then tokens else .word (String.ofList seen.reverse) :: tokens

/-- Reads a character. -/
def step (s : Scanner) (c : Char) : Scanner :=
  match s.place with
  | .outside seen =>
    if c = ' ' then ⟨.outside [], endWord seen s.tokens⟩
    else if c = '"' then ⟨.quoted [], endWord seen s.tokens⟩
    else if isMark c then ⟨.outside [], .mark c :: endWord seen s.tokens⟩
    else { s with place := .outside (c :: seen) }
  | .quoted seen =>
    if c = '"' then ⟨.outside [], .text (String.ofList seen.reverse) :: s.tokens⟩
    else { s with place := .quoted (c :: seen) }

/-- The tokens, when there are no more characters. -/
def finish? (s : Scanner) : Option (List Token) :=
  match s.place with
  | .outside seen => some (endWord seen s.tokens).reverse
  | .quoted _ => none

end Scanner

/-- The tokens of a text. -/
def tokens? (text : List Char) : Option (List Token) :=
  (text.foldl Scanner.step {}).finish?

/-! ## The lines of tokens -/

/-- An arrow from a node to another, by their names in the drawing. -/
structure Arrow where
  source : String
  dotted : Bool
  kind : EdgeKind
  target : String
  deriving Repr, DecidableEq

/-- What a line shows: a node with its name and its label, an arrow, a style with its properties, or
the names of the nodes that have a style. -/
inductive Shown where
  | node (name label : String)
  | arrow (a : Arrow)
  | style (name : String) (properties : List String)
  | styled (names : List String) (common : String)
  deriving Repr, DecidableEq

/-- The words that tokens stand for, with commas between them. -/
def words? (tokens : List Token) : Option (List String) :=
  (tokens.splitOn (.mark ',')).mapM fun
    | [.word w] => some w
    | _ => none

/-- Is an arrow with the written form dotted? -/
def dotted? : String → Option Bool
  | "-->" => some false
  | "-.->" => some true
  | _ => none

/-- The node or the arrow that tokens stand for, after a name. -/
def drawn? (name : String) : List Token → Option Shown
  | [.mark '[', .text label, .mark ']'] => some (.node name label)
  | [.word arrow, .mark '|', .word kind, .mark '|', .word target] => do
    return .arrow
      { source := name, dotted := ← dotted? arrow, kind := ← EdgeKind.ofName? kind, target }
  | _ => none

/-- The style that tokens stand for. -/
def style? : List Token → Option Shown
  | .word name :: tokens => (words? tokens).map (.style name)
  | _ => none

/-- The names and their style that tokens stand for. -/
def styled? (tokens : List Token) : Option Shown :=
  match tokens.getLast? with
  | some (.word style) => (words? tokens.dropLast).map (.styled · style)
  | _ => none

/-- What the tokens of a line show. -/
def shown? : List Token → Option Shown
  | .word first :: tokens =>
    if first = "classDef" then style? tokens
    else if first = "class" then styled? tokens
    else drawn? first tokens
  | _ => none

/-- Reads a drawing: the header, and lines, each with a line feed after it. -/
def read? (text : List Char) : Option (List Shown) :=
  (tokens? text).bind fun tokens =>
    match tokens.splitOn (.mark '\n') with
    | first :: rest =>
      if first = [.word "graph", .word "LR"] ∧ rest.getLast? = some [] then
        rest.dropLast.mapM shown?
      else none
    | [] => none

/-! ## Reading tokens -/

/-- Between tokens, the text is read as the tokens, and the scanner is between tokens again. -/
def Reads (text : List Char) (tokens : List Token) : Prop :=
  ∀ seen, text.foldl Scanner.step ⟨.outside [], seen⟩ = ⟨.outside [], tokens.reverse ++ seen⟩

theorem Reads.append {a b : List Char} {ts us : List Token} (ha : Reads a ts) (hb : Reads b us) :
    Reads (a ++ b) (ts ++ us) := by
  intro seen
  rw [List.foldl_append, ha seen, hb, List.reverse_append, List.append_assoc]

/-- What is read from the start is all there is. -/
theorem Reads.tokens?_eq {text : List Char} {tokens : List Token} (h : Reads text tokens) :
    tokens? text = some tokens := by
  unfold tokens?
  rw [h []]
  simp [Scanner.finish?, Scanner.endWord]

/-- A blank tells nothing. -/
theorem reads_blank : Reads [' '] [] := fun _ => rfl

/-- Marks stand for themselves. -/
theorem reads_mark {c : Char} (hmark : isMark c = true) : Reads [c] [.mark c] := by
  simp only [isMark, List.contains_eq_mem, List.mem_cons, List.not_mem_nil, or_false,
    decide_eq_true_eq] at hmark
  rcases hmark with rfl | rfl | rfl | rfl | rfl <;> exact fun _ => rfl

/-- Is the text a word? -/
def IsWord (w : String) : Prop :=
  w.toList ≠ [] ∧ w.toList.all (!isSeparator ·) = true

theorem foldl_word (text : List Char) (htext : ∀ c ∈ text, isSeparator c = false)
    (seen : List Char) (tokens : List Token) :
    text.foldl Scanner.step ⟨.outside seen, tokens⟩ =
      ⟨.outside (text.reverse ++ seen), tokens⟩ := by
  induction text generalizing seen with
  | nil => rfl
  | cons c text ih =>
    obtain ⟨hc, htext⟩ := List.forall_mem_cons.mp htext
    simp only [isSeparator, Bool.or_eq_false_iff, beq_eq_false_iff_ne] at hc
    obtain ⟨⟨hblank, hquote⟩, hmark⟩ := hc
    have hstep : Scanner.step ⟨.outside seen, tokens⟩ c = ⟨.outside (c :: seen), tokens⟩ := by
      simp [Scanner.step, hblank, hquote, hmark]
    rw [List.foldl_cons, hstep, ih htext]
    simp

/-- A separator is read after a word as it is between tokens. -/
theorem step_endWord {c : Char} (hc : isSeparator c = true) (seen : List Char)
    (tokens : List Token) :
    Scanner.step ⟨.outside seen, tokens⟩ c =
      Scanner.step ⟨.outside [], Scanner.endWord seen tokens⟩ c := by
  simp only [isSeparator, Bool.or_eq_true, beq_iff_eq] at hc
  rcases hc with (rfl | rfl) | hmark
  · simp [Scanner.step, Scanner.endWord]
  · simp [Scanner.step, Scanner.endWord]
  · simp [Scanner.step, Scanner.endWord, hmark]

/-- A word ends where something else follows. -/
theorem reads_word {w : String} (hw : IsWord w) {c : Char} (hc : isSeparator c = true)
    {tokens : List Token} (h : Reads [c] tokens) :
    Reads (w.toList ++ [c]) (.word w :: tokens) := by
  intro seen
  obtain ⟨hne, hchars⟩ := hw
  rw [List.all_eq_true] at hchars
  have hword := foldl_word w.toList (fun c hmem => by simpa using hchars c hmem) [] seen
  have hended : Scanner.endWord (w.toList.reverse ++ []) seen = .word w :: seen := by
    simp [Scanner.endWord, hne]
  have hlast := h (.word w :: seen)
  rw [List.foldl_cons, List.foldl_nil] at hlast
  rw [List.foldl_append, hword, List.foldl_cons, List.foldl_nil, step_endWord hc, hended, hlast,
    List.reverse_cons, List.append_assoc, List.singleton_append]

/-- Between quotes everything but a quote stands for itself. -/
theorem reads_quoted {text : List Char} (htext : '"' ∉ text) :
    Reads ('"' :: text ++ ['"']) [.text (String.ofList text)] := by
  have hinner : ∀ seen tokens, text.foldl Scanner.step ⟨.quoted seen, tokens⟩ =
      ⟨.quoted (text.reverse ++ seen), tokens⟩ := by
    intro seen tokens
    induction text generalizing seen with
    | nil => rfl
    | cons c text ih =>
      obtain ⟨hc, htext⟩ := not_or.mp (List.mem_cons.not.mp htext)
      have hstep : Scanner.step ⟨.quoted seen, tokens⟩ c = ⟨.quoted (c :: seen), tokens⟩ := by
        simp [Scanner.step, Ne.symm hc]
      rw [List.foldl_cons, hstep, ih htext]
      simp
  intro seen
  have hopen : Scanner.step ⟨.outside [], seen⟩ '"' = ⟨.quoted [], seen⟩ := rfl
  rw [List.cons_append, List.foldl_cons, hopen, List.foldl_append, hinner]
  simp [Scanner.step]

/-! ## Reading lines -/

/-- The written form of an arrow. -/
def arrowWord (dotted : Bool) : String :=
  String.ofList (arrow dotted)

namespace Shown

/-- The tokens of words with commas between them. -/
def wordTokens (words : List String) : List Token :=
  [.mark ','].intercalate (words.map fun w => [.word w])

/-- The tokens of a line, without the line feed. -/
def tokens : Shown → List Token
  | .node name label => [.word name, .mark '[', .text label, .mark ']']
  | .arrow a =>
    [.word a.source, .word (arrowWord a.dotted), .mark '|', .word a.kind.name, .mark '|',
      .word a.target]
  | .style name properties => .word "classDef" :: .word name :: wordTokens properties
  | .styled names common => .word "class" :: (wordTokens names ++ [.word common])

/-- Is the text the first word of a line about styles? -/
def IsKeyword (w : String) : Prop :=
  w = "classDef" ∨ w = "class"

/-- What a line can show: no node is called like a keyword, and lists are not empty. -/
def Proper : Shown → Prop
  | .node name _ => ¬IsKeyword name
  | .arrow a => ¬IsKeyword a.source
  | .style _ properties => properties ≠ []
  | .styled names _ => names ≠ []

theorem words?_wordTokens {words : List String} (hne : words ≠ []) :
    words? (wordTokens words) = some words :=
  mapM_splitOn_intercalate hne (fun _ _ => by simp) fun _ _ => rfl

theorem feed_not_mem_wordTokens (words : List String) : Token.mark '\n' ∉ wordTokens words :=
  not_mem_intercalate (by decide) (by simp)

theorem feed_not_mem_tokens (s : Shown) : Token.mark '\n' ∉ s.tokens := by
  cases s <;> simp [tokens, feed_not_mem_wordTokens]

/-- The tokens of a line are read back. -/
theorem Proper.shown?_tokens {s : Shown} (h : s.Proper) : shown? s.tokens = some s := by
  cases s with
  | node name label =>
    obtain ⟨hdef, hclass⟩ := not_or.mp h
    simp [tokens, shown?, hdef, hclass, drawn?]
  | arrow a =>
    obtain ⟨hdef, hclass⟩ := not_or.mp h
    obtain ⟨source, dotted, kind, target⟩ := a
    have hdotted : dotted? (arrowWord dotted) = some dotted := by cases dotted <;> rfl
    have hkind : EdgeKind.ofName? kind.name = some kind := by cases kind <;> rfl
    simp only [tokens, shown?, if_neg hdef, if_neg hclass, drawn?, hdotted, hkind]
    rfl
  | style name properties =>
    simp [tokens, shown?, style?, words?_wordTokens h]
  | styled names common =>
    simp [tokens, shown?, styled?, words?_wordTokens h]

end Shown

/-! ## Reading the lines of a drawing -/

/-- The name of a node in a drawing. -/
def nodeName (number : Nat) : String :=
  "n" ++ toString number

theorem toList_nodeName (number : Nat) : (nodeName number).toList = shortName number :=
  String.toList_append

/-- Different nodes have different names. -/
theorem nodeName_injective {i j : Nat} (h : nodeName i = nodeName j) : i = j := by
  have hlist := congrArg String.toList h
  rw [toList_nodeName, toList_nodeName, shortName, shortName, List.cons.injEq] at hlist
  exact Nat.repr_inj.mp (String.toList_inj.mp hlist.2)

theorem isWord_nodeName (number : Nat) : IsWord (nodeName number) := by
  rw [IsWord, toList_nodeName]
  refine ⟨List.cons_ne_nil _ _, List.all_eq_true.mpr fun c hc => ?_⟩
  rcases List.mem_cons.mp hc with rfl | hc
  · decide
  · have hdigit : c.isDigit = true := by
      rw [Nat.toString_eq_repr, Nat.toList_repr] at hc
      exact Nat.isDigit_of_mem_toDigits (by decide) (by decide) hc
    rw [Bool.not_eq_true']
    by_contra hseparator
    -- no separator is a digit
    simp only [isSeparator, isMark, Bool.not_eq_false, Bool.or_eq_true, beq_iff_eq,
      List.contains_eq_mem, List.mem_cons, List.not_mem_nil, or_false, decide_eq_true_eq]
      at hseparator
    rcases hseparator with (rfl | rfl) | rfl | rfl | rfl | rfl | rfl <;>
      exact absurd hdigit (by decide)

theorem not_isKeyword_nodeName (number : Nat) : ¬Shown.IsKeyword (nodeName number) := by
  rintro (h | h) <;> simpa [toList_nodeName, shortName] using congrArg String.toList h

namespace Line

/-- What a line of a drawing shows. The cyclic nodes take two. -/
def shown : Line → List Shown
  | .node number text => [.node (nodeName number) (String.ofList (label text.toList))]
  | .edge source dotted kind target =>
    [.arrow { source := nodeName source, dotted, kind, target := nodeName target }]
  | .cyclic numbers =>
    [.style "cyclic" ["fill:#f8d7da", "stroke:#c00"], .styled (numbers.map nodeName) "cyclic"]

/-- The tokens of a line that has been written. -/
def tokens (line : Line) : List Token :=
  line.shown.flatMap fun s => s.tokens ++ [.mark '\n']

/-- The name of a node ends where something else follows. -/
theorem reads_name (number : Nat) {c : Char} (hc : isSeparator c = true) {tokens : List Token}
    (h : Reads [c] tokens) :
    Reads (shortName number ++ [c]) (.word (nodeName number) :: tokens) := by
  simpa [toList_nodeName] using reads_word (isWord_nodeName number) hc h

theorem reads_names (numbers : List Nat) :
    Reads ([','].intercalate (numbers.map shortName) ++ [' '])
      (Shown.wordTokens (numbers.map nodeName)) := by
  unfold Shown.wordTokens
  induction numbers with
  | nil => exact reads_blank
  | cons number numbers ih =>
    cases numbers with
    | nil => simpa using reads_name number (by decide) reads_blank
    | cons next numbers =>
      have hcomma := reads_name number (c := ',') (by decide) (reads_mark (by decide))
      simpa [List.intercalate_cons_cons] using hcomma.append ih

/-- A line that has been written is read as its tokens. -/
theorem reads (line : Line) : Reads line.render line.tokens := by
  have hindent : Reads "  ".toList [] := fun _ => rfl
  cases line with
  | node number text =>
    have hname := reads_name number (c := '[') (by decide) (reads_mark (by decide))
    have hlabel := reads_quoted (quote_not_mem_label text.toList)
    have hclosing : Reads "]\n".toList [.mark ']', .mark '\n'] := fun _ => rfl
    have hline := hindent.append (hname.append (hlabel.append hclosing))
    show Reads ("  ".toList ++ shortName number ++ "[\"".toList ++ label text.toList ++
      "\"]\n".toList) _
    simpa [tokens, shown, Shown.tokens] using hline
  | edge source dotted kind target =>
    have hsource := reads_name source (c := ' ') (by decide) reads_blank
    have harrow : Reads (arrow dotted ++ ['|']) [.word (arrowWord dotted), .mark '|'] := by
      cases dotted <;> exact fun _ => rfl
    have hkind : Reads (kind.name.toList ++ "| ".toList) [.word kind.name, .mark '|'] := by
      cases kind <;> exact fun _ => rfl
    have htarget := reads_name target (c := '\n') (by decide) (reads_mark (by decide))
    have hline := hindent.append (hsource.append (harrow.append (hkind.append htarget)))
    show Reads ("  ".toList ++ shortName source ++ ' ' :: arrow dotted ++ '|' :: kind.name.toList ++
      "| ".toList ++ shortName target ++ ['\n']) _
    simpa [tokens, shown, Shown.tokens] using hline
  | cyclic numbers =>
    have hopening : Reads "  classDef cyclic fill:#f8d7da,stroke:#c00\n  class ".toList
        [.word "classDef", .word "cyclic", .word "fill:#f8d7da", .mark ',', .word "stroke:#c00",
          .mark '\n', .word "class"] := fun _ => rfl
    have hclosing : Reads "cyclic\n".toList [.word "cyclic", .mark '\n'] := fun _ => rfl
    have hlines := hopening.append ((reads_names numbers).append hclosing)
    show Reads ("  classDef cyclic fill:#f8d7da,stroke:#c00\n  class ".toList ++
      [','].intercalate (numbers.map shortName) ++ " cyclic\n".toList) _
    simpa [tokens, shown, Shown.tokens, Shown.wordTokens] using hlines

/-- Every line can be shown, if the line of the cyclic nodes names some. -/
theorem proper {line : Line} (h : line ≠ .cyclic []) : ∀ s ∈ line.shown, s.Proper := by
  cases line with
  | node number text => exact List.forall_mem_singleton.mpr (not_isKeyword_nodeName number)
  | edge source dotted kind target =>
    exact List.forall_mem_singleton.mpr (not_isKeyword_nodeName source)
  | cyclic numbers =>
    have hne : numbers ≠ [] := fun hnil => h (hnil ▸ rfl)
    exact List.forall_mem_cons.mpr ⟨List.cons_ne_nil _ _,
      List.forall_mem_singleton.mpr (by simpa [Shown.Proper] using hne)⟩

end Line

/-- Lines after the header are read back. -/
theorem read?_of_ne {lines : List Line} (h : ∀ line ∈ lines, line ≠ .cyclic []) :
    read? ("graph LR\n".toList ++ lines.flatMap Line.render) = some (lines.flatMap Line.shown) := by
  let header : List Token := [.word "graph", .word "LR"]
  let pieces := header :: (lines.flatMap Line.shown).map Shown.tokens
  have hbody : Reads (lines.flatMap Line.render)
      (((lines.flatMap Line.shown).map Shown.tokens).flatMap (· ++ [.mark '\n'])) := by
    rw [List.flatMap_map, List.flatMap_assoc]
    induction lines with
    | nil => exact fun _ => rfl
    | cons line lines ih => exact line.reads.append (ih fun l hl => h l (List.mem_cons_of_mem _ hl))
  have hheader : Reads "graph LR\n".toList (header ++ [.mark '\n']) := fun _ => rfl
  -- the last line ends in a line feed too, so the last piece is empty
  have htokens : tokens? ("graph LR\n".toList ++ lines.flatMap Line.render) =
      some (pieces.flatMap (· ++ [.mark '\n']) ++ []) := by
    rw [List.append_nil]
    exact (hheader.append hbody).tokens?_eq
  have hpieces : ∀ piece ∈ pieces ++ [[]], Token.mark '\n' ∉ piece := by
    simp only [pieces, List.mem_append, List.mem_cons, List.mem_map, List.not_mem_nil, or_false]
    rintro piece ((rfl | ⟨s, -, rfl⟩) | rfl)
    · decide
    · exact s.feed_not_mem_tokens
    · exact List.not_mem_nil
  have hshown : ((lines.flatMap Line.shown).map Shown.tokens).mapM shown? =
      some (lines.flatMap Line.shown) := by
    refine mapM_map_of_inverse fun s hs => ?_
    obtain ⟨line, hline, hs⟩ := List.mem_flatMap.mp hs
    exact (Line.proper (h line hline) s hs).shown?_tokens
  rw [read?, htokens, Option.bind_some, splitOn_ended hpieces]
  simp [pieces, header, hshown]

/-- The drawing of any graph is read back as what its lines show. -/
theorem read?_drawing (g : Graph) :
    read? (drawing g) = some ((drawingLines g).flatMap Line.shown) := by
  refine read?_of_ne fun line hline => ?_
  rcases List.mem_append.mp hline with hline | hline
  · rcases List.mem_append.mp hline with hnode | hedge
    · obtain ⟨entry, -, rfl⟩ := List.mem_map.mp hnode
      exact nofun
    · -- whether or not an end has a number, no such line comes of an edge
      obtain ⟨e, -, he⟩ := List.mem_filterMap.mp hedge
      simp only [ofEdge?, Option.pure_def, Option.bind_eq_bind, Option.bind_eq_some_iff,
        Option.some.injEq] at he
      obtain ⟨source, -, target, -, rfl⟩ := he
      exact nofun
  · unfold cyclicLine at hline
    split at hline
    · exact absurd hline List.not_mem_nil
    · next hne =>
      rw [List.mem_singleton.mp hline]
      exact fun hnil => hne (Line.cyclic.inj hnil)

/-! ## The numbers of nodes -/

theorem getElem?_foldl_insert {ids : List String} (hids : ids.Nodup) (start : Nat)
    (numbers : Std.TreeMap String Nat) (id : String) :
    ((ids.zipIdx start).foldl (fun numbers entry => numbers.insert entry.1 entry.2) numbers)[id]? =
      if id ∈ ids then some (start + ids.idxOf id) else numbers[id]? := by
  induction ids generalizing start numbers with
  | nil => simp
  | cons first ids ih =>
    obtain ⟨hfirst, hids⟩ := List.nodup_cons.mp hids
    rw [List.zipIdx_cons, List.foldl_cons, ih hids]
    simp only [Std.TreeMap.getElem?_insert, Std.compare_eq_iff_eq]
    by_cases heq : first = id
    · -- no later identifier takes its number
      subst heq
      simp [hfirst]
    · rw [List.idxOf_cons_ne _ heq]
      simp only [List.mem_cons, Ne.symm heq, heq, false_or, if_false]
      split
      · rw [Nat.add_right_comm, Nat.add_assoc]
      · rfl

/-- The number of a node is its place in the order of identifiers. -/
theorem getElem?_numbering (g : Graph) (id : String) :
    (numbering g)[id]? = if id ∈ g.nodeIds then some (g.nodeIds.idxOf id) else none := by
  have hnodup : g.nodeIds.Nodup := Std.TreeMap.nodup_keys
  rw [numbering, getElem?_foldl_insert hnodup, Nat.zero_add]
  simp

/-- No edge is left out: both of its ends have numbers. -/
theorem filterMap_ofEdge?_sortedEdges {g : Graph} (h : g.Anchored) :
    g.sortedEdges.filterMap (ofEdge? (numbering g)) = g.sortedEdges.map fun e =>
      .edge (g.nodeIds.idxOf e.source) (e.optional || e.dynamic) e.kind
        (g.nodeIds.idxOf e.target) := by
  rw [← List.filterMap_eq_map]
  refine List.filterMap_congr fun e he => ?_
  obtain ⟨hsource, htarget⟩ := h e ((Graph.sortedEdges_perm g).mem_iff.mp he)
  rw [← Graph.mem_nodeIds_iff] at hsource htarget
  rw [ofEdge?, getElem?_numbering, if_pos hsource, getElem?_numbering, if_pos htarget]
  rfl

/-- The identifier for which a name stands: that in its place. -/
def idOf? (ids : List String) (name : String) : Option String :=
  (ids.zipIdx.find? fun entry => nodeName entry.2 == name).map (·.1)

theorem idOf?_nodeName (ids : List String) (i : Nat) : idOf? ids (nodeName i) = ids[i]? := by
  unfold idOf?
  cases hfind : ids.zipIdx.find? fun entry => nodeName entry.2 == nodeName i with
  | some entry =>
    -- another entry would have another name
    have hplace : entry.2 = i := nodeName_injective (by simpa using List.find?_some hfind)
    have hentry := List.mem_zipIdx_iff_getElem?.mp (List.mem_of_find?_eq_some hfind)
    rw [hplace] at hentry
    exact hentry.symm
  | none =>
    cases hid : ids[i]? with
    | none => rfl
    | some id =>
      have hmem : (id, i) ∈ ids.zipIdx := List.mem_zipIdx_iff_getElem?.mpr hid
      exact absurd (List.find?_eq_none.mp hfind _ hmem) (by simp)

/-- The name of a node in the drawing of a graph stands for its identifier. -/
theorem idOf?_nodeName_idxOf {g : Graph} {id : String} (h : g.contains id = true) :
    idOf? g.nodeIds (nodeName (g.nodeIds.idxOf id)) = some id := by
  rw [idOf?_nodeName, List.getElem?_idxOf (Graph.mem_nodeIds_iff.mpr h)]

/-! ## What a drawing shows -/

/-- The lines of the nodes call each of them after its place. -/
theorem flatMap_shown_nodes {g : Graph} (h : g.Identified) :
    (g.nodes.zipIdx.map fun entry => Line.node entry.2 entry.1.id).flatMap Line.shown =
      g.nodeIds.mapIdx fun i id => .node (nodeName i) (String.ofList (label id.toList)) := by
  rw [← h.map_id_nodes, List.mapIdx_eq_zipIdx_map, List.zipIdx_map, List.map_map,
    List.flatMap_map]
  exact List.map_eq_flatMap.symm

/-- The names of the cyclic nodes in a drawing. -/
def cyclicNames (g : Graph) : List String :=
  (g.nodes.zipIdx.filter (·.1.cyclic)).map fun entry => nodeName entry.2

theorem map_fst_filter_zipIdx (nodes : List Node) :
    (nodes.zipIdx.filter (·.1.cyclic)).map Prod.fst = nodes.filter (·.cyclic) := by
  have hfilter := List.filter_map (f := Prod.fst) (p := Node.cyclic) (l := nodes.zipIdx)
  rw [List.zipIdx_map_fst] at hfilter
  exact hfilter.symm

/-- There is a line of cyclic nodes if there are cyclic nodes. -/
theorem flatMap_shown_cyclicLine (g : Graph) :
    (cyclicLine g).flatMap Line.shown =
      if g.nodes.any (·.cyclic) then
        [.style "cyclic" ["fill:#f8d7da", "stroke:#c00"], .styled (cyclicNames g) "cyclic"]
      else [] := by
  have hany : g.nodes.any (·.cyclic) =
      (g.nodes.zipIdx.filter (·.1.cyclic)).any fun _ => true :=
    calc g.nodes.any (·.cyclic)
        = (g.nodes.filter (·.cyclic)).any fun _ => true := by simp [List.any_filter]
      _ = (g.nodes.zipIdx.filter (·.1.cyclic)).any fun _ => true := by
        rw [← map_fst_filter_zipIdx, List.any_map]
        rfl
  unfold cyclicLine cyclicNames
  rw [hany]
  cases g.nodes.zipIdx.filter (·.1.cyclic) with
  | nil => rfl
  | cons entry entries => simp [Line.shown]

/-- The names of the cyclic nodes stand for them. -/
theorem map_idOf?_cyclicNames {g : Graph} (h : g.Identified) :
    (cyclicNames g).map (idOf? g.nodeIds) = (g.nodes.filter (·.cyclic)).map fun n => some n.id := by
  rw [cyclicNames, List.map_map, ← map_fst_filter_zipIdx, List.map_map]
  refine List.map_congr_left fun entry hentry => ?_
  have hnode := List.mem_zipIdx_iff_getElem?.mp (List.mem_of_mem_filter hentry)
  show idOf? g.nodeIds (nodeName entry.2) = some entry.1.id
  rw [idOf?_nodeName, ← h.map_id_nodes, List.getElem?_map, hnode, Option.map_some]

end Mermaid

namespace Graph

open Mermaid

/-- **Drawings show exactly the graph.** Whatever the identifiers are, the drawing of a graph is
read back as a line for each node, in the strict order of identifiers, that calls it after its place
and is labelled with the escaped identifier, then an arrow for each edge, in the strict order of
keys, and a line that names exactly the cyclic nodes, if there are any. -/
theorem Annotated.read_lines {g : Graph} (hg : g.Annotated) :
    ∃ (arrows : List Arrow) (cyclic : List String),
      read? (drawing g) = some
        ((g.nodeIds.mapIdx fun i id =>
            .node ("n" ++ toString i) (String.ofList (label id.toList))) ++
          arrows.map .arrow ++
          if g.nodes.any (·.cyclic) then
            [.style "cyclic" ["fill:#f8d7da", "stroke:#c00"], .styled cyclic "cyclic"]
          else []) ∧
      (arrows.map fun a =>
          (idOf? g.nodeIds a.source, idOf? g.nodeIds a.target, a.kind, a.dotted)) =
        (g.sortedEdges.map fun e =>
          (some e.source, some e.target, e.kind, e.optional || e.dynamic)) ∧
      cyclic.map (idOf? g.nodeIds) = (g.nodes.filter (·.cyclic)).map (fun n => some n.id) ∧
      (∀ i : Nat, idOf? g.nodeIds ("n" ++ toString i) = g.nodeIds[i]?) ∧
      (∀ text, '"' ∉ label text) ∧
      g.nodes.map (·.id) = g.nodeIds ∧ (g.nodes.Pairwise fun a b => a.id < b.id) ∧
      g.sortedEdges.Perm g.edges.toList ∧
      g.sortedEdges.Pairwise fun a b => EdgeKey.order a.key b.key = .lt := by
  let arrow (e : Edge) : Arrow :=
    { source := nodeName (g.nodeIds.idxOf e.source)
      dotted := e.optional || e.dynamic
      kind := e.kind
      target := nodeName (g.nodeIds.idxOf e.target) }
  refine ⟨g.sortedEdges.map arrow, cyclicNames g, ?_, ?_, map_idOf?_cyclicNames hg.identified,
    idOf?_nodeName _, quote_not_mem_label, hg.identified.map_id_nodes,
    hg.identified.pairwise_nodes, sortedEdges_perm g, hg.keyed.pairwise_sortedEdges⟩
  · rw [read?_drawing, drawingLines, List.flatMap_append, List.flatMap_append,
      flatMap_shown_nodes hg.identified, filterMap_ofEdge?_sortedEdges hg.anchored,
      flatMap_shown_cyclicLine, List.flatMap_map, List.map_map]
    rw [List.map_eq_flatMap (l := g.sortedEdges)]
    rfl
  · rw [List.map_map]
    refine List.map_congr_left fun e he => ?_
    obtain ⟨hsource, htarget⟩ := hg.anchored e ((sortedEdges_perm g).mem_iff.mp he)
    simp only [Function.comp_apply, arrow, idOf?_nodeName_idxOf hsource,
      idOf?_nodeName_idxOf htarget]

/-- A cyclic node of the empty identifier and one whose identifier looks like the end of its label
and a line after it, each depending on the other, and a node between them in order. -/
def numbered : Graph :=
  let g := ((({} : Graph).addNode
    { id := "a\"]\n  n0 --> n1", name := "a", kind := .file, source := "" }).addNode
    { id := "", name := "b", kind := .file, source := "", cyclic := true }).addNode
    { id := "[", name := "c", kind := .file, source := "" }
  let g := g.addEdge
    { source := "", target := "a\"]\n  n0 --> n1", kind := .uses, dynamic := true }
  g.addEdge { source := "a\"]\n  n0 --> n1", target := "", kind := .imports }

theorem annotated_numbered : numbered.Annotated :=
  ((((Annotated.empty default).addNode _).addNode _).addNode _ |>.addEdge _).addEdge _

/-- The line in the label is none of the drawing. -/
theorem read_lines_numbered :
    numbered.Annotated ∧ ∃ (arrows : List Arrow) (cyclic : List String),
      read? (drawing numbered) = some
        ([.node "n0" "", .node "n1" "[", .node "n2" "a#quot;]\n  n0 --> n1"] ++
          arrows.map .arrow ++
          [.style "cyclic" ["fill:#f8d7da", "stroke:#c00"], .styled cyclic "cyclic"]) ∧
      (arrows.map fun a =>
          (idOf? numbered.nodeIds a.source, idOf? numbered.nodeIds a.target, a.kind, a.dotted)) =
        [(some "", some "a\"]\n  n0 --> n1", .uses, true),
          (some "a\"]\n  n0 --> n1", some "", .imports, false)] ∧
      cyclic.map (idOf? numbered.nodeIds) = [some ""] := by
  obtain ⟨arrows, cyclic, hread, harrows, hcyclic, -⟩ := annotated_numbered.read_lines
  refine ⟨annotated_numbered, arrows, cyclic, ?_, ?_, ?_⟩
  · have hids : numbered.nodeIds = ["", "[", "a\"]\n  n0 --> n1"] := by decide +kernel
    have hany : numbered.nodes.any (·.cyclic) = true := by decide +kernel
    rw [hread, hids, if_pos hany]
    rfl
  · have hsorted : numbered.sortedEdges = numbered.edges.toList :=
      List.mergeSort_of_pairwise (by decide +kernel)
    rw [harrows, hsorted]
    decide +kernel
  · rw [hcyclic]
    decide +kernel

end Graph

end DepGraph
