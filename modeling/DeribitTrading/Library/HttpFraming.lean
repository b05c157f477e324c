import DeribitTrading.Library.ByteString

/-!
Header blocks of HTTP responses as they appear in front of a body. A line holds
no line feed, so inside one block the separator occurs at its end only; the
first separator of a buffer is therefore the end of the first block, whatever
follows it.
-/
namespace HttpFraming
open ByteString

def cr : UInt8 := 13
def lf : UInt8 := 10
def crlf : Bytes := [cr, lf]

/-- The empty line that ends a header block, with the line break before it. -/
def separator : Bytes := [cr, lf, cr, lf]

structure HeaderLine where
  text : Bytes
  nonempty : text ≠ []
  unbroken : lf ∉ text

/-- A status line and header lines; at least the status line is there. -/
structure HeaderBlock where
  statusLine : HeaderLine
  headerLines : List HeaderLine

def HeaderLine.render (l : HeaderLine) : Bytes := l.text ++ crlf

def renderLines (lines : List HeaderLine) : Bytes := lines.flatMap HeaderLine.render

def HeaderBlock.render (b : HeaderBlock) : Bytes :=
  renderLines (b.statusLine :: b.headerLines) ++ crlf

/-- Blocks of interim, redirect and final responses, one after the other. -/
def renderBlocks (blocks : List HeaderBlock) : Bytes := blocks.flatMap HeaderBlock.render

@[simp] theorem renderBlocks_nil : renderBlocks [] = [] := rfl

@[simp] theorem renderBlocks_cons (b : HeaderBlock) (blocks : List HeaderBlock) :
    renderBlocks (b :: blocks) = b.render ++ renderBlocks blocks := rfl

theorem not_separator_of_second {b c : UInt8} {rest : Bytes} (second : c ≠ lf) :
    ¬ separator <+: b :: c :: rest := by
  intro here
  simp only [separator, List.cons_prefix_cons] at here
  exact second here.2.1.symm

theorem find_unbroken_crlf {text : Bytes} (unbroken : lf ∉ text) (rest : Bytes) :
    find separator (text ++ cr :: lf :: rest) =
      (find separator (cr :: lf :: rest)).map (· + text.length) := by
  induction text with
  | nil => simp
  | cons b text ih =>
      have later : lf ∉ text := fun member => unbroken (List.mem_cons_of_mem b member)
      have absent : ¬ separator <+: b :: (text ++ cr :: lf :: rest) := by
        cases text with
        | nil => exact not_separator_of_second (by decide)
        | cons c text =>
            exact not_separator_of_second fun same => later (same ▸ List.mem_cons_self)
      rw [List.cons_append, find_cons_skip absent, ih later, Option.map_map]
      congr 1

theorem find_crlf_line {rest : Bytes} (goes_on : ¬ crlf <+: rest) :
    find separator (cr :: lf :: rest) = (find separator rest).map (· + 2) := by
  have first : ¬ separator <+: cr :: lf :: rest := by
    intro here
    simp only [separator, List.cons_prefix_cons, true_and] at here
    exact goes_on here
  have second : ¬ separator <+: lf :: rest := by
    intro here
    simp only [separator, List.cons_prefix_cons] at here
    exact absurd here.1 (by decide)
  rw [find_cons_skip first, find_cons_skip second, Option.map_map]
  rfl

theorem find_crlf_crlf (rest : Bytes) : find separator (crlf ++ crlf ++ rest) = some 0 := by
  have here : separator <+: cr :: lf :: cr :: lf :: rest := ⟨rest, rfl⟩
  exact find_cons_here here

theorem not_crlf_prefix_line (l : HeaderLine) (rest : Bytes) : ¬ crlf <+: l.render ++ rest := by
  obtain ⟨text, nonempty, unbroken⟩ := l
  intro here
  simp only [HeaderLine.render, crlf] at here
  match text, nonempty with
  | [b], _ =>
      simp only [List.cons_append, List.nil_append, List.cons_prefix_cons] at here
      exact absurd here.2.1 (by decide)
  | b :: c :: text, _ =>
      simp only [List.cons_append, List.cons_prefix_cons] at here
      exact unbroken (by simp [here.2.1])

theorem find_line (l : HeaderLine) {rest : Bytes} (goes_on : ¬ crlf <+: rest) :
    find separator (l.render ++ rest) = (find separator rest).map (· + l.render.length) := by
  have shape : l.render ++ rest = l.text ++ cr :: lf :: rest := by
    simp [HeaderLine.render, crlf]
  rw [shape, find_unbroken_crlf l.unbroken, find_crlf_line goes_on, Option.map_map]
  congr 1
  funext i
  simp [HeaderLine.render, crlf]
  omega

theorem find_last_line (l : HeaderLine) (rest : Bytes) :
    find separator (l.render ++ (crlf ++ rest)) = some l.text.length := by
  have shape : l.render ++ (crlf ++ rest) = l.text ++ cr :: lf :: (crlf ++ rest) := by
    simp [HeaderLine.render, crlf]
  rw [shape, find_unbroken_crlf l.unbroken]
  have ends := find_crlf_crlf rest
  simp only [crlf, List.cons_append, List.nil_append] at ends ⊢
  rw [ends, Option.map_some, Nat.zero_add]

/-- Lines push the first separator back by exactly their own length. -/
theorem find_lines (l : HeaderLine) (lines : List HeaderLine) (rest : Bytes) :
    find separator (renderLines (l :: lines) ++ (crlf ++ rest)) =
      some ((renderLines (l :: lines)).length - 2) := by
  induction lines generalizing l with
  | nil =>
      have whole : renderLines [l] = l.render := by simp [renderLines]
      rw [whole, find_last_line]
      simp [HeaderLine.render, crlf]
  | cons l' lines ih =>
      have head : renderLines (l :: l' :: lines) = l.render ++ renderLines (l' :: lines) := rfl
      have goes_on : ¬ crlf <+: renderLines (l' :: lines) ++ (crlf ++ rest) := by
        have next : renderLines (l' :: lines) = l'.render ++ renderLines lines := rfl
        rw [next, List.append_assoc]
        exact not_crlf_prefix_line l' _
      have room : 2 ≤ (renderLines (l' :: lines)).length := by
        simp [renderLines, HeaderLine.render, crlf]
        omega
      rw [head, List.append_assoc, find_line l goes_on, ih l', Option.map_some,
        List.length_append]
      congr 1
      omega

theorem HeaderBlock.render_length (b : HeaderBlock) : 4 ≤ b.render.length := by
  simp [HeaderBlock.render, renderLines, HeaderLine.render, crlf]
  omega

/-- The first separator of a buffer that starts with a header block ends that block. -/
theorem HeaderBlock.find_render (b : HeaderBlock) (rest : Bytes) :
    find separator (b.render ++ rest) = some (b.render.length - 4) := by
  rw [HeaderBlock.render, List.append_assoc, find_lines]
  simp [crlf]

/-- A text that begins the way a line does: no line feed in its first two places. -/
structure StartsLine (s : Bytes) : Prop where
  first : s[0]? ≠ some lf
  second : s[1]? ≠ some lf

theorem HeaderLine.startsLine (l : HeaderLine) (rest : Bytes) : StartsLine (l.render ++ rest) := by
  obtain ⟨text, nonempty, unbroken⟩ := l
  match text, nonempty with
  | [b], _ =>
      refine ⟨?_, by simp [render, crlf, cr, lf]⟩
      simpa [render] using fun same : b = lf => unbroken (by simp [same])
  | b :: c :: text, _ =>
      constructor
      · simpa [render] using fun same : b = lf => unbroken (by simp [same])
      · simpa [render] using fun same : c = lf => unbroken (by simp [same])

theorem HeaderBlock.startsLine (b : HeaderBlock) (rest : Bytes) :
    StartsLine (b.render ++ rest) := by
  have shape : b.render ++ rest =
      b.statusLine.render ++ (renderLines b.headerLines ++ (crlf ++ rest)) := by
    simp [render, renderLines]
  rw [shape]
  exact b.statusLine.startsLine _

theorem separator_line_feeds {s : Bytes} {i : Nat} (here : separator <+: s.drop i) :
    s[i + 1]? = some lf ∧ s[i + 3]? = some lf := by
  obtain ⟨t, same⟩ := here
  have at_offset : ∀ j, s[i + j]? = (separator ++ t)[j]? := by
    intro j
    rw [same, List.getElem?_drop]
  exact ⟨at_offset 1, at_offset 3⟩

/-- A header block that breaks off holds no separator, and none straddles the
break when a new line follows. -/
theorem HeaderBlock.find_cut (b : HeaderBlock) {front : Bytes} (cut : front <+: b.render)
    (short : front.length < b.render.length) {rest : Bytes} (starts : StartsLine rest) :
    find separator (front ++ rest) = (find separator rest).map (· + front.length) := by
  apply find_skip
  intro i below here
  obtain ⟨second, fourth⟩ := separator_line_feeds here
  by_cases inside : i + 4 ≤ front.length
  · obtain ⟨tail, whole⟩ := cut
    have ends := b.find_render []
    rw [List.append_nil] at ends
    refine find_first ends (i := i) (by omega) ?_
    rw [← whole]
    rw [List.drop_append_of_le_length (by omega)] at here ⊢
    have fits : separator.length ≤ (front.drop i).length := by
      rw [List.length_drop]
      show 4 ≤ _
      omega
    exact (List.prefix_of_prefix_length_le here (List.prefix_append _ _) fits).trans
      (List.prefix_append _ _)
  · by_cases two : i + 2 = front.length
    · rw [List.getElem?_append_right (by omega), show i + 3 - front.length = 1 by omega] at fourth
      exact starts.second fourth
    · by_cases one : i + 1 = front.length
      · rw [List.getElem?_append_right (by omega), show i + 1 - front.length = 0 by omega] at second
        exact starts.first second
      · rw [List.getElem?_append_right (by omega), show i + 3 - front.length = 0 by omega] at fourth
        exact starts.first fourth

theorem HeaderBlock.startsLine_cut (b : HeaderBlock) {front : Bytes} (cut : front <+: b.render)
    {rest : Bytes} (starts : StartsLine rest) : StartsLine (front ++ rest) := by
  obtain ⟨tail, whole⟩ := cut
  have block := b.startsLine []
  rw [List.append_nil, ← whole] at block
  match front with
  | [] => exact starts
  | [c] => exact ⟨by simpa using block.first, by simpa using starts.first⟩
  | c :: d :: front => exact ⟨by simpa using block.first, by simpa using block.second⟩

end HttpFraming
