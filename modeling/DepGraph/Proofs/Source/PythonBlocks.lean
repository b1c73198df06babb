import DepGraph.Proofs.Text.Pieces
import DepGraph.Source.Python

/-!
# Triple-quoted blocks

What a Python source says about its blocks is read from left to right. Outside of blocks a hash
comments out the rest of its line and three equal quotes open a block; inside, only the same three
quotes close it. The scanner does not read so closely. It cuts a line at its first hash, counts the
delimiters that are left, and inside a block it asks only whether the line has the delimiter.

- `pieces`: a source as delimiters and other characters.
- `Reading`: where in a source a reader is; `Reading.before`: where at the start of a line.
- `Reading.depth_foldl_step`: on a line with plain blocks the delimiters before the cut tell how the
  reading ends.
- `PythonScan.before`: how far a scan has come at the start of a line; `scan_eq_before`.
- `Tracked`: what a source must keep to.
- `PythonScan.mode_readLine`, `PythonScan.mode_readLines`: one line, and any number of them.
- `PythonScan.block_before_iff`: at the start of every line both are in the same block, or in none.
- `PythonScan.blocks_go_astray`: in other sources the scanner sees a block where there is none.
-/

namespace DepGraph.Python

open DepGraph.Text

/-! ## Delimiters among characters -/

/-- A piece of a source: a delimiter, or a character that belongs to none. -/
inductive Piece where
  | delimiter (d : Delimiter)
  | char (c : Char)
  deriving Repr, DecidableEq

/-- The pieces of a source: three equal quotes are a delimiter, taken from the left. -/
def pieces : List Char → List Piece
  | '"' :: '"' :: '"' :: rest => .delimiter .double :: pieces rest
  | '\'' :: '\'' :: '\'' :: rest => .delimiter .single :: pieces rest
  | c :: rest => .char c :: pieces rest
  | [] => []

/-- Is the character a quote? -/
def isQuote (c : Char) : Bool :=
  c == '"' || c == '\''

theorem not_mem_text_of_not_isQuote {c : Char} (h : isQuote c = false) (d : Delimiter) :
    c ∉ d.text := by
  simp only [isQuote, Bool.or_eq_false_iff, beq_eq_false_iff_ne] at h
  cases d <;> simp [Delimiter.text, h]

@[simp] theorem pieces_nil : pieces [] = [] := rfl

theorem pieces_delimiter (d : Delimiter) (rest : List Char) :
    pieces (d.text ++ rest) = .delimiter d :: pieces rest := by
  cases d <;> rfl

theorem pieces_char {c : Char} {rest : List Char} (h : ∀ d : Delimiter, ¬ d.text <+: c :: rest) :
    pieces (c :: rest) = .char c :: pieces rest := by
  rw [pieces]
  · rintro tail rfl rfl
    exact h .double ⟨tail, rfl⟩
  · rintro tail rfl rfl
    exact h .single ⟨tail, rfl⟩

/-- A source starts with a delimiter or with another character, or it is at its end. -/
@[elab_as_elim]
theorem pieces_induction {motive : List Char → Prop} (nil : motive [])
    (delimiter : ∀ d rest, motive rest → motive (Delimiter.text d ++ rest))
    (char : ∀ c rest, (∀ d : Delimiter, ¬ d.text <+: c :: rest) → motive rest →
      motive (c :: rest)) : ∀ text, motive text := by
  intro text
  induction text using pieces.induct with
  | case1 rest ih => exact delimiter .double rest ih
  | case2 rest ih => exact delimiter .single rest ih
  | case3 c rest hdouble hsingle ih =>
    refine char c rest (fun d hprefix => ?_) ih
    obtain ⟨tail, htail⟩ := hprefix
    cases d with
    | double => exact hdouble tail (List.cons.inj htail).1.symm (List.cons.inj htail).2.symm
    | single => exact hsingle tail (List.cons.inj htail).1.symm (List.cons.inj htail).2.symm
  | case4 => exact nil

/-- No delimiter goes over a character that is not a quote. -/
theorem pieces_append {c : Char} (hc : isQuote c = false) (text rest : List Char) :
    pieces (text ++ c :: rest) = pieces text ++ .char c :: pieces rest := by
  have hdelimiter := not_mem_text_of_not_isQuote hc
  induction text using pieces_induction with
  | nil =>
    refine pieces_char fun d h => ?_
    have hempty := prefix_of_prefix_append (hdelimiter d) rest [] h
    cases d <;> exact absurd (List.prefix_nil.mp hempty) (List.cons_ne_nil _ _)
  | delimiter d text ih =>
    rw [List.append_assoc, pieces_delimiter, pieces_delimiter, ih]
    rfl
  | char a text hnot ih =>
    have hstart : pieces (a :: (text ++ c :: rest)) = .char a :: pieces (text ++ c :: rest) :=
      pieces_char fun d h => hnot d (prefix_of_prefix_append (hdelimiter d) rest (a :: text) h)
    rw [List.cons_append, hstart, pieces_char hnot, ih]
    rfl

/-! ## What the scanner counts -/

theorem countFrom_delimiter (d d' : Delimiter) (count : Nat) (rest : List Char) :
    countFrom d.text 0 count (d'.text ++ rest) =
      countFrom d.text 0 (if d' = d then count + 1 else count) rest := by
  cases d <;> cases d' <;> simp [countFrom, Delimiter.text, List.isPrefixOf]

theorem countFrom_char {d : Delimiter} {c : Char} {rest : List Char} (h : ¬ d.text <+: c :: rest)
    (count : Nat) : countFrom d.text 0 count (c :: rest) = countFrom d.text 0 count rest := by
  have hnot : d.text.isPrefixOf (c :: rest) = false := by
    rw [Bool.eq_false_iff]
    exact fun hprefix => h (List.isPrefixOf_iff_prefix.mp hprefix)
  rw [countFrom, hnot, if_neg Bool.false_ne_true]

theorem countFrom_eq (d : Delimiter) (text : List Char) :
    ∀ count, countFrom d.text 0 count text = count + (pieces text).count (.delimiter d) := by
  induction text using pieces_induction with
  | nil => exact fun _ => rfl
  | delimiter d' rest ih =>
    intro count
    rw [countFrom_delimiter, ih, pieces_delimiter, List.count_cons]
    by_cases hd : d' = d
    · subst hd
      simp only [if_true, beq_self_eq_true]
      omega
    · simp [hd]
  | char c rest hnot ih =>
    intro count
    rw [countFrom_char (hnot d), ih, pieces_char hnot, List.count_cons_of_ne (by simp)]

theorem countOf_eq_count (d : Delimiter) (text : List Char) :
    countOf d.text text = (pieces text).count (.delimiter d) := by
  unfold countOf
  rw [countFrom_eq, Nat.zero_add]

theorem occursIn_iff (d : Delimiter) (text : List Char) :
    occursIn d.text text = true ↔ .delimiter d ∈ pieces text := by
  induction text using pieces_induction with
  | nil => cases d <;> simp [occursIn, Delimiter.text]
  | delimiter d' rest ih =>
    rw [pieces_delimiter, List.mem_cons, ← ih, Piece.delimiter.injEq]
    cases d <;> cases d' <;> simp [occursIn, Delimiter.text, List.isPrefixOf]
  | char c rest hnot ih =>
    have hstart : d.text.isPrefixOf (c :: rest) = false := by
      rw [Bool.eq_false_iff]
      exact fun hprefix => hnot d (List.isPrefixOf_iff_prefix.mp hprefix)
    rw [pieces_char hnot, List.mem_cons, ← ih, occursIn, hstart]
    simp

theorem delimiter_not_mem_pieces {text : List Char} (h : ∀ c ∈ text, isQuote c = false)
    (d : Delimiter) : .delimiter d ∉ pieces text := by
  induction text using pieces_induction with
  | nil => exact List.not_mem_nil
  | delimiter d' rest ih =>
    -- the first of the three quotes should not be there
    cases d' with
    | double => exact absurd (h '"' (by simp [Delimiter.text])) (by decide)
    | single => exact absurd (h '\'' (by simp [Delimiter.text])) (by decide)
  | char c rest hnot ih =>
    rw [pieces_char hnot]
    exact List.not_mem_cons_of_ne_of_not_mem nofun
      (ih fun c' hc' => h c' (List.mem_cons_of_mem c hc'))

theorem opensBlock_eq_none {text : List Char} (h : ∀ c ∈ text, isQuote c = false) :
    opensBlock text = none := by
  have hcount : ∀ d : Delimiter, countOf d.text text = 0 := by
    intro d
    rw [countOf_eq_count, List.count_eq_zero]
    exact delimiter_not_mem_pieces h d
  unfold opensBlock
  rw [hcount .double, hcount .single]
  rfl

/-- A piece other than the hash. -/
def Piece.isUncut (p : Piece) : Bool :=
  p != .char '#'

/-- The cut at the first hash takes no delimiter apart. -/
theorem pieces_stripComment (line : List Char) :
    pieces (stripComment line) = (pieces line).takeWhile Piece.isUncut := by
  induction line using pieces_induction with
  | nil => rfl
  | delimiter d rest ih =>
    have hstrip : stripComment (d.text ++ rest) = d.text ++ stripComment rest := by
      cases d <;> rfl
    rw [hstrip, pieces_delimiter, pieces_delimiter, ih]
    rfl
  | char c rest hnot ih =>
    rw [pieces_char hnot]
    by_cases hc : c = '#'
    · subst hc
      rfl
    · have hstrip : stripComment (c :: rest) = c :: stripComment rest :=
        List.takeWhile_cons_of_pos (by simpa using hc)
      have hshorter : c :: stripComment rest <+: c :: rest :=
        List.cons_prefix_cons.mpr ⟨rfl, List.takeWhile_prefix _⟩
      have hpiece : Piece.isUncut (.char c) = true := by simpa [Piece.isUncut] using hc
      rw [hstrip, pieces_char fun d hd => hnot d (hd.trans hshorter), ih,
        List.takeWhile_cons_of_pos hpiece]

theorem isQuote_eq_false_of_isBlank {c : Char} (h : isBlank c = true) : isQuote c = false := by
  rw [Bool.eq_false_iff]
  intro hquote
  simp only [isQuote, Bool.or_eq_true, beq_iff_eq] at hquote
  rcases hquote with rfl | rfl <;> exact absurd h (by decide)

/-- Blanks before a text hold no delimiter, and take none from it. -/
theorem count_pieces_blanks_append (d : Delimiter) {blanks : List Char}
    (h : ∀ c ∈ blanks, isBlank c = true) (text : List Char) :
    (pieces (blanks ++ text)).count (.delimiter d) = (pieces text).count (.delimiter d) := by
  induction blanks with
  | nil => rfl
  | cons c blanks ih =>
    have hc := isQuote_eq_false_of_isBlank (h c (List.mem_cons_self ..))
    have hstart : pieces (c :: (blanks ++ text)) = .char c :: pieces (blanks ++ text) :=
      pieces_append hc [] (blanks ++ text)
    rw [List.cons_append, hstart, List.count_cons_of_ne (by simp)]
    exact ih fun c' hc' => h c' (List.mem_cons_of_mem c hc')

theorem count_pieces_append_blanks (d : Delimiter) {blanks : List Char}
    (h : ∀ c ∈ blanks, isBlank c = true) (text : List Char) :
    (pieces (text ++ blanks)).count (.delimiter d) = (pieces text).count (.delimiter d) := by
  cases blanks with
  | nil => rw [List.append_nil]
  | cons c blanks =>
    have hc := isQuote_eq_false_of_isBlank (h c (List.mem_cons_self ..))
    have hrest := count_pieces_blanks_append d
      (fun c' hc' => h c' (List.mem_cons_of_mem c hc')) []
    rw [List.append_nil] at hrest
    rw [pieces_append hc, List.count_append, List.count_cons_of_ne (by simp), hrest, pieces_nil,
      List.count_nil, Nat.add_zero]

theorem count_pieces_trim (d : Delimiter) (text : List Char) :
    (pieces (trim text)).count (.delimiter d) = (pieces text).count (.delimiter d) := by
  obtain ⟨lead, trail, hlead, htrail, heq⟩ := exists_eq_surround text
  calc (pieces (trim text)).count (.delimiter d)
      = (pieces (lead ++ trim text)).count (.delimiter d) :=
        (count_pieces_blanks_append d hlead _).symm
    _ = (pieces (lead ++ trim text ++ trail)).count (.delimiter d) :=
        (count_pieces_append_blanks d htrail _).symm
    _ = (pieces text).count (.delimiter d) := by rw [← heq]

/-! ## The reading of a source -/

/-- Where in a source a reader is. -/
inductive Reading where
  | code
  | comment
  | block (d : Delimiter)
  deriving Repr, DecidableEq

namespace Reading

/-- The reading of one piece. -/
def step : Reading → Piece → Reading
  | .code, .delimiter d => .block d
  | .code, .char c => if c = '#' then .comment else .code
  | .comment, .delimiter _ => .comment
  | .comment, .char c => if c = '\n' then .code else .comment
  | .block d, .delimiter d' => if d' = d then .code else .block d
  | .block d, .char _ => .block d

/-- Where the reader of a text is after it. -/
def after (r : Reading) (text : List Char) : Reading :=
  (pieces text).foldl step r

/-- The block in which the reader is. -/
def block? : Reading → Option Delimiter
  | .block d => some d
  | _ => none

/-- The mode of a scanner that is in the same block. -/
def mode (r : Reading) : Mode :=
  match r.block? with
  | some d => .block d
  | none => .code

/-- Is the reader in a block with the delimiter? Counted as one or none. -/
def depth (r : Reading) (d : Delimiter) : Nat :=
  if r = .block d then 1 else 0

theorem after_append {c : Char} (hc : isQuote c = false) (r : Reading) (text rest : List Char) :
    r.after (text ++ c :: rest) = ((r.after text).step (.char c)).after rest := by
  unfold after
  rw [pieces_append hc, List.foldl_append, List.foldl_cons]

theorem step_return (r : Reading) : r.step (.char '\r') = r := by
  cases r <;> rfl

theorem step_newline_ne_comment (r : Reading) : r.step (.char '\n') ≠ .comment := by
  cases r <;> exact nofun

theorem block?_step_newline (r : Reading) : (r.step (.char '\n')).block? = r.block? := by
  cases r <;> rfl

theorem after_withoutReturn (r : Reading) (line : List Char) :
    r.after (withoutReturn line) = r.after line := by
  rcases eq_withoutReturn_or line with h | h
  · rw [← h]
  · have hreturn := after_append (c := '\r') (by decide) r (withoutReturn line) []
    rw [← h, step_return] at hreturn
    exact hreturn.symm

theorem foldl_step_comment {text : List Piece} (h : Piece.char '\n' ∉ text) :
    text.foldl step .comment = .comment := by
  induction text with
  | nil => rfl
  | cons p text ih =>
    have hstep : step .comment p = .comment := by
      cases p with
      | delimiter d => rfl
      | char c =>
        refine if_neg fun hc => h ?_
        rw [hc]
        exact List.mem_cons_self ..
    rw [List.foldl_cons, hstep]
    exact ih (List.not_mem_of_not_mem_cons h)

theorem foldl_step_block {d : Delimiter} {text : List Piece} (h : .delimiter d ∉ text) :
    text.foldl step (.block d) = .block d := by
  induction text with
  | nil => rfl
  | cons p text ih =>
    have hstep : step (.block d) p = .block d := by
      cases p with
      | delimiter d' =>
        refine if_neg fun hd => h ?_
        rw [hd]
        exact List.mem_cons_self ..
      | char c => rfl
    rw [List.foldl_cons, hstep]
    exact ih (List.not_mem_of_not_mem_cons h)

end Reading

/-! ## Lines with plain blocks -/

/-- Is the piece a delimiter inside a block that it does not close? -/
def Reading.isForeign : Reading → Piece → Bool
  | .block d, .delimiter d' => d' != d
  | _, _ => false

/-- Are the blocks plain that the rest of a line opens? They hold no other delimiter, and no hash
before their end on that line. -/
def isPlain : Reading → List Piece → Bool
  | _, [] => true
  | r, p :: rest =>
    if p = .char '#' then r.block?.all fun d => !rest.contains (.delimiter d)
    else !r.isForeign p && isPlain (r.step p) rest

/-- What one piece before the cut does to a reading: its delimiter opens the block or closes it. -/
theorem Reading.depth_step (d : Delimiter) {r : Reading} {p : Piece} (hr : r ≠ .comment)
    (hp : p ≠ .char '#') (hforeign : r.isForeign p = false) :
    (r.depth d + [p].count (.delimiter d)) % 2 = (r.step p).depth d ∧ r.step p ≠ .comment := by
  cases r with
  | comment => exact absurd rfl hr
  | code =>
    cases p with
    | delimiter d' =>
      refine ⟨?_, nofun⟩
      by_cases hd : d' = d <;> simp [depth, step, hd]
    | char c =>
      have hstep : step .code (.char c) = .code := if_neg fun hc => hp (congrArg Piece.char hc)
      rw [hstep]
      exact ⟨by simp [depth], nofun⟩
  | block d' =>
    cases p with
    | delimiter d'' =>
      obtain rfl : d'' = d' := by simpa [isForeign] using hforeign
      refine ⟨?_, by simp [step]⟩
      by_cases hd : d'' = d <;> simp [depth, step, hd]
    | char c =>
      refine ⟨?_, nofun⟩
      by_cases hd : d' = d <;> simp [depth, step, hd]

/-- On a line with plain blocks the delimiters before the cut tell whether the reading ends in a
block with that delimiter. -/
theorem Reading.depth_foldl_step (d : Delimiter) {line : List Piece}
    (hline : Piece.char '\n' ∉ line) : ∀ {r : Reading}, r ≠ .comment → isPlain r line = true →
      (r.depth d + (line.takeWhile Piece.isUncut).count (.delimiter d)) % 2 =
        (line.foldl step r).depth d := by
  induction line with
  | nil =>
    intro r _ _
    have hone : r.depth d < 2 := by
      unfold depth
      split <;> decide
    exact Nat.mod_eq_of_lt hone
  | cons p line ih =>
    intro r hr hplain
    have hrest : Piece.char '\n' ∉ line := List.not_mem_of_not_mem_cons hline
    rw [isPlain] at hplain
    by_cases hp : p = .char '#'
    · -- nothing behind the cut moves the reading
      rw [if_pos hp] at hplain
      subst hp
      rw [List.takeWhile_cons_of_neg (by decide), List.foldl_cons]
      cases r with
      | comment => exact absurd rfl hr
      | code =>
        have hend := foldl_step_comment hrest
        show _ = (line.foldl step .comment).depth d
        rw [hend]
        rfl
      | block d' =>
        have hopen : Piece.delimiter d' ∉ line := by simpa [block?] using hplain
        show _ = (line.foldl step (.block d')).depth d
        rw [foldl_step_block hopen]
        by_cases hd : d' = d <;> simp [depth, hd]
    · rw [if_neg hp, Bool.and_eq_true, Bool.not_eq_true'] at hplain
      obtain ⟨hforeign, hnext⟩ := hplain
      obtain ⟨hdepth, hcode⟩ := depth_step d hr hp hforeign
      have hend := ih hrest hcode hnext
      have hcount : (p :: line.takeWhile Piece.isUncut).count (.delimiter d) =
          [p].count (.delimiter d) + (line.takeWhile Piece.isUncut).count (.delimiter d) := by
        rw [← List.singleton_append, List.count_append]
      rw [List.takeWhile_cons_of_pos (by simpa [Piece.isUncut] using hp), List.foldl_cons, hcount]
      omega

theorem newline_not_mem_pieces {line : List Char} (h : '\n' ∉ line) :
    Piece.char '\n' ∉ pieces line := by
  induction line using pieces_induction with
  | nil => exact List.not_mem_nil
  | delimiter d rest ih =>
    rw [pieces_delimiter]
    exact List.not_mem_cons_of_ne_of_not_mem nofun
      (ih fun hrest => h (List.mem_append_right _ hrest))
  | char c rest hnot ih =>
    rw [pieces_char hnot]
    refine List.not_mem_cons_of_ne_of_not_mem ?_ (ih (List.not_mem_of_not_mem_cons h))
    exact fun hc => List.ne_of_not_mem_cons h (Piece.char.inj hc)

/-- The scanner sees the block in which a line with plain blocks ends. -/
theorem opensBlock_eq_block? {line : List Char} (hline : '\n' ∉ line)
    (hplain : isPlain .code (pieces line) = true) :
    opensBlock (trim (stripComment line)) = (Reading.code.after line).block? := by
  have hparity : ∀ d : Delimiter, countOf d.text (trim (stripComment line)) % 2 =
      (Reading.code.after line).depth d := by
    intro d
    have hdepth := Reading.depth_foldl_step d (newline_not_mem_pieces hline)
      (Reading.noConfusion : Reading.code ≠ .comment) hplain
    have hcode : Reading.code.depth d = 0 := rfl
    rw [hcode, Nat.zero_add] at hdepth
    rw [countOf_eq_count, count_pieces_trim, pieces_stripComment]
    exact hdepth
  unfold opensBlock
  rw [hparity .double, hparity .single]
  -- at most one of the two counts is odd, so their order does not matter
  cases Reading.code.after line with
  | code => rfl
  | comment => rfl
  | block d => cases d <;> rfl

/-! ## Sources that can be tracked by lines -/

/-- The start of a source up to the end of so many lines. -/
def firstLines : Nat → List Char → List Char
  | 0, _ => []
  | _ + 1, [] => []
  | n + 1, c :: rest => c :: firstLines (if c = '\n' then n else n + 1) rest

@[simp] theorem firstLines_zero (text : List Char) : firstLines 0 text = [] := by
  cases text <;> rfl

theorem firstLines_append_newline {line : List Char} (h : '\n' ∉ line) (n : Nat)
    (rest : List Char) :
    firstLines (n + 1) (line ++ '\n' :: rest) = line ++ '\n' :: firstLines n rest := by
  induction line with
  | nil => rfl
  | cons c line ih =>
    have hc : c ≠ '\n' := (List.ne_of_not_mem_cons h).symm
    rw [List.cons_append, firstLines, if_neg hc, ih (List.not_mem_of_not_mem_cons h)]
    rfl

/-- Where the reader of a source is at the start of the line after so many. -/
def Reading.before (source : List Char) (n : Nat) : Reading :=
  Reading.code.after (firstLines n source)

namespace PythonScan

/-- Reads lines, of which the first has the given number. -/
def readLines (s : PythonScan) (number : Nat) (text : List (List Char)) : PythonScan :=
  (text.zipIdx number).foldl (fun s line => s.readLine line.2 line.1) s

theorem readLines_cons (s : PythonScan) (number : Nat) (line : List Char)
    (text : List (List Char)) : s.readLines number (line :: text) =
      (s.readLine number line).readLines (number + 1) text := rfl

/-- What a scan of a source has come to at the start of the line after so many. -/
def before (source : List Char) (n : Nat) : PythonScan :=
  readLines {} 1 ((lines source).take n)

end PythonScan

/-- The scan is over after the last line. -/
theorem scan_eq_before (source : List Char) :
    scan source = (PythonScan.before source (lines source).length).result := by
  unfold PythonScan.before
  rw [List.take_length]
  rfl

/-- The line starts a parenthesised import. -/
def startsList (line : List Char) : Prop :=
  "from ".toList <+: trim line ∧ '(' ∈ line

instance (line : List Char) : Decidable (startsList line) :=
  inferInstanceAs (Decidable (_ ∧ _))

/-- The blocks of a source, read on from a place in it, can be tracked by lines. -/
structure Tracked (r : Reading) (source : List Char) : Prop where
  /-- On a line that starts outside of blocks the blocks are plain. -/
  plain : ∀ n line, (lines source)[n]? = some line →
    (r.after (firstLines n source)).block? = none → isPlain .code (pieces line) = true
  /-- A line that closes the block in which it starts ends outside of blocks. -/
  closed : ∀ n line d, (lines source)[n]? = some line → r.after (firstLines n source) = .block d →
    .delimiter d ∈ pieces line → ((Reading.block d).after line).block? = none
  /-- There is no parenthesised import. -/
  flat : ∀ line ∈ lines source, ¬ startsList line

theorem Tracked.tail {r : Reading} {line rest : List Char} (hline : '\n' ∉ line)
    (h : Tracked r (line ++ '\n' :: rest)) :
    Tracked ((r.after line).step (.char '\n')) rest := by
  have hlines := lines_append_newline hline rest
  have hafter : ∀ n, r.after (firstLines (n + 1) (line ++ '\n' :: rest)) =
      ((r.after line).step (.char '\n')).after (firstLines n rest) := by
    intro n
    rw [firstLines_append_newline hline, Reading.after_append (by decide)]
  constructor
  · intro n next hnext hblock
    refine h.plain (n + 1) next ?_ ?_
    · rw [hlines, List.getElem?_cons_succ, hnext]
    · rw [hafter, hblock]
  · intro n next d hnext hblock
    refine h.closed (n + 1) next d ?_ ?_
    · rw [hlines, List.getElem?_cons_succ, hnext]
    · rw [hafter, hblock]
  · intro next hnext
    refine h.flat next ?_
    rw [hlines]
    exact List.mem_cons_of_mem _ hnext

namespace PythonScan

/-- Code that starts no parenthesised import leaves the scanner in code or in a block. -/
theorem mode_readCode {s : PythonScan} (hs : s.mode = .code) (number : Nat) {line : List Char}
    (hflat : ¬ startsList line) : (s.readCode number line).mode =
      match opensBlock (trim (stripComment line)) with
      | some d => .block d
      | none => .code := by
  have hlist : ("from ".toList.isPrefixOf (trim (stripComment line)) &&
      (trim (stripComment line)).contains '(') = false := by
    rw [Bool.eq_false_iff]
    intro hstart
    rw [Bool.and_eq_true, List.isPrefixOf_iff_prefix, List.contains_iff_mem] at hstart
    have hstrip : stripComment line <+: line := List.takeWhile_prefix _
    refine hflat ⟨hstart.1.trans (trim_prefix_trim hstrip), ?_⟩
    exact hstrip.subset (trim_subset _ hstart.2)
  unfold readCode
  dsimp only
  rw [hlist]
  cases opensBlock (trim (stripComment line)) with
  | some d => rfl
  | none =>
    dsimp only
    split
    · unfold addDefinition
      split <;> exact hs
    · rfl

/-- One line: a scanner that is in the same block as the reading still is after a line. -/
theorem mode_readLine {s : PythonScan} {r : Reading} (hs : s.mode = r.mode) (number : Nat)
    {line : List Char} (hline : '\n' ∉ line)
    (hplain : r.block? = none → isPlain .code (pieces line) = true)
    (hclosed : ∀ d, r = .block d → .delimiter d ∈ pieces line →
      ((Reading.block d).after line).block? = none)
    (hflat : ¬ startsList line) (hr : r ≠ .comment) :
    (s.readLine number line).mode = (r.after line).mode := by
  cases r with
  | comment => exact absurd rfl hr -- no line starts in a comment
  | code =>
    have hcode : s.readLine number line = s.readCode number line := by
      unfold readLine
      rw [show s.mode = .code from hs]
    rw [hcode, mode_readCode hs number hflat, opensBlock_eq_block? hline (hplain rfl)]
    rfl
  | block d =>
    have hblock : s.readLine number line =
        if occursIn d.text line then { s with mode := .code } else s := by
      unfold readLine
      rw [show s.mode = .block d from hs]
    rw [hblock]
    -- the scanner asks whether the delimiter occurs, the reading where it does
    by_cases hd : .delimiter d ∈ pieces line
    · rw [if_pos ((occursIn_iff d line).mpr hd), Reading.mode, hclosed d rfl hd]
    · have hstays : (Reading.block d).after line = .block d := Reading.foldl_step_block hd
      rw [if_neg (mt (occursIn_iff d line).mp hd), hstays]
      exact hs

/-- All lines: the scanner keeps to the reading of a source that can be tracked. -/
theorem mode_readLines {source : List Char} {r : Reading} {s : PythonScan} {n : Nat}
    (number : Nat) (hs : s.mode = r.mode) (hr : r ≠ .comment) (h : Tracked r source)
    (hn : n < (lines source).length) :
    (s.readLines number ((lines source).take n)).mode = (r.after (firstLines n source)).mode := by
  induction n generalizing source r s number with
  | zero =>
    rw [firstLines_zero]
    exact hs
  | succ n ih =>
    rcases not_mem_or_eq_append_newline source with hsource | ⟨line, rest, rfl, hline⟩
    · -- a source without line feeds has no second line
      rw [lines_of_not_mem hsource] at hn
      split at hn <;> simp at hn
    · have hlines := lines_append_newline hline rest
      have hreturn : '\n' ∉ withoutReturn line := by
        rcases eq_withoutReturn_or line with heq | heq
        · rwa [← heq]
        · intro hmem
          rw [heq] at hline
          exact hline (List.mem_append_left _ hmem)
      have hfirst : (lines (line ++ '\n' :: rest))[0]? = some (withoutReturn line) := by
        rw [hlines]
        rfl
      -- the first line, and then the source that is left
      have hnext : (s.readLine number (withoutReturn line)).mode =
          ((r.after line).step (.char '\n')).mode := by
        have hplain := h.plain 0 _ hfirst
        have hclosed := fun d => h.closed 0 _ d hfirst
        rw [firstLines_zero] at hplain hclosed
        have hflat := h.flat _ (List.mem_of_getElem? hfirst)
        have hread := mode_readLine hs number hreturn hplain hclosed hflat hr
        rw [hread, Reading.after_withoutReturn, Reading.mode, Reading.mode,
          Reading.block?_step_newline]
      rw [hlines, List.take_succ_cons, readLines_cons,
        firstLines_append_newline hline, Reading.after_append (by decide)]
      refine ih (number + 1) hnext (Reading.step_newline_ne_comment _) (h.tail hline) ?_
      rw [hlines, List.length_cons] at hn
      omega

/-- At the start of a line the scanner is in a block exactly if the reading is, and in the same.
Quotes that belong to no delimiter may stand anywhere. -/
theorem block_before_iff {source : List Char} (h : Tracked .code source) {n : Nat}
    (hn : n < (lines source).length) (d : Delimiter) :
    (before source n).mode = .block d ↔ Reading.before source n = .block d := by
  have hmode : (before source n).mode = (Reading.before source n).mode :=
    mode_readLines 1 rfl nofun h hn
  rw [hmode]
  cases Reading.before source n with
  | code => exact iff_of_false nofun nofun
  | comment => exact iff_of_false nofun nofun
  | block d' =>
    show Mode.block d' = Mode.block d ↔ _
    rw [Mode.block.injEq, Reading.block.injEq]

/-- A source with a hash and the other delimiter in a block of several lines, a delimiter in a
comment, and a block of one line. -/
def notes : List Char :=
  ("\"\"\"Notes # 1\nimport fake\n'''\n\"\"\"\n" ++
    "import os  # \"\"\"\n'''One line.'''\nimport re\n").toList

theorem block_before_notes :
    Tracked .code notes ∧ (before notes 2).mode = .block .double ∧
      (before notes 4).mode ≠ .block .double ∧ (before notes 6).mode ≠ .block .single := by
  have htracked : Tracked .code notes := by
    refine ⟨fun n line hline => ?_, fun n line d hline => ?_, by decide⟩
    · have hplain : ∀ p ∈ (lines notes).zipIdx,
          (Reading.code.after (firstLines p.2 notes)).block? = none →
            isPlain .code (pieces p.1) = true := by decide
      exact hplain (line, n) (List.mk_mem_zipIdx_iff_getElem?.mpr hline)
    · have hclosed : ∀ p ∈ (lines notes).zipIdx, ∀ d ∈ [Delimiter.double, .single],
          Reading.code.after (firstLines p.2 notes) = .block d →
            .delimiter d ∈ pieces p.1 → ((Reading.block d).after p.1).block? = none := by
        decide
      exact hclosed (line, n) (List.mk_mem_zipIdx_iff_getElem?.mpr hline) d (by cases d <;> decide)
  refine ⟨htracked, ?_, ?_, ?_⟩
  · exact (block_before_iff htracked (by decide) .double).mpr (by decide)
  · exact mt (block_before_iff htracked (by decide) .double).mp (by decide)
  · exact mt (block_before_iff htracked (by decide) .single).mp (by decide)

/-- Do quotes occur, outside of blocks and comments, only in delimiters? -/
def quotesDelimit : Reading → List Piece → Bool
  | _, [] => true
  | r, p :: rest =>
    !(r == .code && (p == .char '"' || p == .char '\'')) && quotesDelimit (r.step p) rest

/-- Without conditions on its blocks a source cannot be tracked: a block of one line that holds the
other delimiter hides the import on the next line. -/
theorem blocks_go_astray :
    ¬ ∀ source : List Char, quotesDelimit .code (pieces source) = true →
      (∀ line ∈ lines source, ¬ startsList line) → ∀ n < (lines source).length, ∀ d,
        (before source n).mode = .block d ↔ Reading.before source n = .block d := by
  intro hall
  have h := hall "\"\"\"not ''' here\"\"\"\nimport os\n".toList (by decide)
    (by decide) 1 (by decide) .single
  exact absurd (h.mp (by decide)) (by decide)

end PythonScan

end DepGraph.Python
