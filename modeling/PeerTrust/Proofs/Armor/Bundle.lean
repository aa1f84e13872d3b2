/-
  `Proofs.Armor.Bundle` — armor of many blocks, between lines of text and perhaps cut off.

  A bundle is what files of trusted roots hold: blocks of certificates under either of their
  labels, blocks of other things, lines of text, and at the end perhaps a block that is not whole.
  Every block has one `Frame`, which the search for blocks finds at its place and leaves right
  behind it (`nextBlock?_lines`). Lines of text are passed (`blocks?_line`), and what has been cut
  off gives no block, since a block that is found in a part of the frame would be found in the whole
  frame too, with something left behind it (`nextBlock?_of_cut`). By induction over the parts the
  certificates that are read are those of the parts, in their order
  (`certificateBodies?_content`).

  Whether a content is read as armor at all is another question. It is the first line of a block
  labelled as a certificate that decides, and a bundle holds it exactly if one of its blocks has
  that label and has not lost its first line (`holdsArmorMark_content_iff`).
-/
import PeerTrust.Proofs.Armor

namespace PeerTrust.Armor

open Content

/-! ### Marks and lines -/

/-- What may stand in front of the end of a line. -/
def carriageReturn : Symbol := .octet 0x0D

theorem not_mem_marks :
    (newline ∉ mark beginMark ∧ carriageReturn ∉ mark beginMark) ∧
    (newline ∉ mark endMark ∧ carriageReturn ∉ mark endMark) ∧
    newline ∉ mark certificateMark ∧ carriageReturn ∉ mark certificateMark := by
  decide +kernel

theorem certificateMark_eq : mark certificateMark = mark beginMark ++ label ++ mark dashes := by
  decide +kernel

/-- The line of a certificate's mark starts like that of every block. -/
theorem beginMark_infix {content : Content} (h : mark certificateMark <:+: content) :
    mark beginMark <:+: content := by
  rw [certificateMark_eq, List.append_assoc] at h
  exact (List.prefix_append _ _).isInfix.trans h

/-- **How a line ends:** with a newline, and maybe with a carriage return in front of it. -/
def IsLineEnd (lineEnd : Content) : Prop :=
  lineEnd = [newline] ∨ lineEnd = [carriageReturn, newline]

section Lines

variable {lineEnd content rest run : Content}

theorem IsLineEnd.isSpelledOut (h : IsLineEnd lineEnd) : IsSpelledOut lineEnd := by
  rcases h with rfl | rfl <;> simp [IsSpelledOut, newline, carriageReturn, Symbol.expand]

/-- **A run stands on one side of the end of a line** if it has none of its symbols. -/
theorem IsLineEnd.infix_iff (h : IsLineEnd lineEnd) (hnewline : newline ∉ run)
    (hreturn : carriageReturn ∉ run) :
    run <:+: content ++ (lineEnd ++ rest) ↔ run <:+: content ∨ run <:+: rest := by
  rcases h with rfl | rfl
  · exact Text.infix_append_cons_iff hnewline
  · show run <:+: content ++ carriageReturn :: (newline :: rest) ↔ _
    have hbehind : run <:+: [] ++ newline :: rest ↔ run <:+: [] ∨ run <:+: rest :=
      Text.infix_append_cons_iff hnewline
    rw [List.nil_append] at hbehind
    rw [Text.infix_append_cons_iff hreturn, hbehind]
    have hempty : run <:+: [] → run <:+: content := fun h => h.trans List.nil_infix
    constructor
    · exact fun h => h.elim .inl fun h => h.imp_left hempty
    · exact fun h => h.imp_right .inr

/-- **A search passes a line** in which the run does not stand. -/
theorem IsLineEnd.seek?_eq (h : IsLineEnd lineEnd) (hrun : run ≠ []) (hnewline : newline ∉ run)
    (hreturn : carriageReturn ∉ run) (hcontent : ¬run <:+: content) (rest : Content) :
    Text.seek? run (content ++ (lineEnd ++ rest)) =
      (Text.seek? run rest).map fun (before, after) => (content ++ lineEnd ++ before, after) := by
  have hline : ¬run <:+: content ++ carriageReturn :: [] := by
    rw [Text.infix_append_cons_iff hreturn, List.infix_nil]
    exact not_or_intro hcontent hrun
  rcases h with rfl | rfl
  · rw [List.singleton_append, Text.seek?_line hrun hnewline hcontent]
    simp
  · show Text.seek? run (content ++ carriageReturn :: newline :: rest) = _
    rw [List.append_cons content, Text.seek?_line hrun hnewline hline]
    simp

end Lines

/-! ### Frames -/

/-- **The frame of a block:** its label, what stands between its first and its last line, and how
its lines end. Inside there is no mark of another block. -/
structure Frame where
  label : Content
  inner : Content
  lineEnd : Content
  isLineEnd : IsLineEnd lineEnd
  spelledOut_label : IsSpelledOut label
  dash_not_mem : dash ∉ label
  spelledOut_inner : IsSpelledOut inner
  beginMark_not_infix : ¬mark beginMark <:+: inner
  endMark_not_infix : ¬mark endMark <:+: inner

namespace Frame

/-- The first line. -/
def firstLine (f : Frame) : Content := mark beginMark ++ (f.label ++ mark dashes)

/-- The last line. -/
def lastLine (f : Frame) : Content := mark endMark ++ (f.label ++ mark dashes)

/-- All lines; behind the last one there is no end of a line. -/
def lines (f : Frame) : Content :=
  f.firstLine ++ (f.lineEnd ++ (f.inner ++ (f.lineEnd ++ f.lastLine)))

/-- What is read between the first and the last line; blanks in front of it are skipped. -/
def payload (f : Frame) : Content := (f.inner ++ f.lineEnd).dropWhile isSkipped

theorem isSpelledOut_lines (f : Frame) : IsSpelledOut f.lines := by
  have hmark : ∀ s, IsSpelledOut (mark s) := isSpelledOut_ofText
  simp only [lines, firstLine, lastLine, isSpelledOut_append_iff, hmark, f.spelledOut_label,
    f.isLineEnd.isSpelledOut, f.spelledOut_inner, and_self]

theorem dropWhile_lineEnd (f : Frame) (rest : Content) :
    (f.lineEnd ++ rest).dropWhile isSkipped = rest.dropWhile isSkipped := by
  have hall : f.lineEnd.all isSkipped = true := by
    rcases f.isLineEnd with h | h <;> rw [h] <;> rfl
  exact List.dropWhile_append_of_pos (List.all_eq_true.mp hall)

/-- The payload is what stands inside, up to the end of its last line, or it is all blank. -/
theorem payload_cases (f : Frame) :
    f.payload = [] ∨ ∃ inner, inner <:+ f.inner ∧ f.payload = inner ++ f.lineEnd := by
  rw [payload, List.dropWhile_append]
  by_cases hblank : (f.inner.dropWhile isSkipped).isEmpty = true
  · have hend := f.dropWhile_lineEnd []
    rw [List.append_nil] at hend
    rw [if_pos hblank, hend]
    exact Or.inl rfl
  · rw [if_neg hblank]
    exact Or.inr ⟨_, List.dropWhile_suffix _, rfl⟩

/-- **The payload ends where the last line starts.** -/
theorem seek?_payload (f : Frame) (rest : Content) :
    Text.seek? (mark endMark) (f.payload ++ (mark endMark ++ rest)) = some (f.payload, rest) := by
  obtain ⟨-, ⟨hnewline, hreturn⟩, -⟩ := not_mem_marks
  have hnonempty : mark endMark ≠ [] := by decide +kernel
  have hhere : Text.seek? (mark endMark) (mark endMark ++ rest) = some ([], rest) :=
    Text.seek?_append head?_marks.2.1 List.not_mem_nil
  rcases f.payload_cases with hblank | ⟨inner, hinner, hpayload⟩
  · rw [hblank, List.nil_append, hhere]
  · have hunmarked : ¬mark endMark <:+: inner := fun h =>
      f.endMark_not_infix (h.trans hinner.isInfix)
    rw [hpayload, List.append_assoc,
      f.isLineEnd.seek?_eq hnonempty hnewline hreturn hunmarked, hhere]
    simp

/-- **A frame is found at its place,** and the search goes on right behind it. -/
theorem nextBlock?_lines (f : Frame) (rest : Content) :
    nextBlock? (f.lines ++ rest) = some (⟨f.label, f.label, f.payload⟩, rest) := by
  obtain ⟨hbegin, hend, hdashes⟩ := head?_marks
  have hopened (rest : Content) :
      Text.seek? (mark beginMark) (mark beginMark ++ rest) = some ([], rest) :=
    Text.seek?_append hbegin List.not_mem_nil
  have hlabelled (rest : Content) :
      Text.seek? (mark dashes) (f.label ++ (mark dashes ++ rest)) = some (f.label, rest) :=
    Text.seek?_append hdashes f.dash_not_mem
  have hskipped (rest : Content) :
      (f.lineEnd ++ (f.inner ++ (f.lineEnd ++ (mark endMark ++ rest)))).dropWhile isSkipped =
        f.payload ++ (mark endMark ++ rest) := by
    -- no blank is skipped beyond the payload, since the last line starts with a dash
    have hstop : (mark endMark ++ rest).dropWhile isSkipped = mark endMark ++ rest := by
      obtain ⟨more, hmore⟩ := List.head?_eq_some_iff.mp hend
      rw [hmore]
      rfl
    rw [f.dropWhile_lineEnd, ← List.append_assoc, List.dropWhile_append, hstop, ← payload]
    by_cases hblank : f.payload.isEmpty = true
    · rw [if_pos hblank, List.isEmpty_iff.mp hblank, List.nil_append]
    · rw [if_neg hblank]
  have hlines : f.lines ++ rest = mark beginMark ++ (f.label ++ (mark dashes ++ (f.lineEnd ++
      (f.inner ++ (f.lineEnd ++ (mark endMark ++ (f.label ++ (mark dashes ++ rest)))))))) := by
    simp only [lines, firstLine, lastLine, List.append_assoc]
  rw [nextBlock?, hlines, hopened]
  simp only [Option.bind_eq_bind, Option.bind_some, hlabelled, hskipped, f.seek?_payload]

end Frame

/-- **A block that is found stays the first one** if the content goes on. -/
theorem nextBlock?_append_right {content rest : Content} {raw : RawBlock}
    (h : nextBlock? content = some (raw, rest)) (more : Content) :
    nextBlock? (content ++ more) = some (raw, rest ++ more) := by
  simp only [nextBlock?, Option.bind_eq_bind, Option.bind_eq_some_iff] at h
  obtain ⟨⟨_, r₁⟩, h₁, ⟨_, r₂⟩, h₂, ⟨_, r₃⟩, h₃, ⟨_, r₄⟩, h₄, heq⟩ := h
  obtain ⟨rfl, rfl⟩ := Prod.mk.inj (Option.some.inj heq)
  -- the end mark is found behind what is skipped, so skipping stops before the content ends
  have hskipped : (r₂ ++ more).dropWhile isSkipped = r₂.dropWhile isSkipped ++ more := by
    rw [List.dropWhile_append, if_neg]
    intro hempty
    rw [List.isEmpty_iff] at hempty
    rw [hempty] at h₃
    exact Nat.not_lt_zero _ (Text.length_of_seek? (by decide +kernel) h₃)
  simp only [nextBlock?, Text.seek?_append_right h₁ more, Text.seek?_append_right h₂ more, hskipped,
    Text.seek?_append_right h₃ more, Text.seek?_append_right h₄ more, Option.bind_eq_bind,
    Option.bind_some]

/-- **What has been cut off gives no block.** -/
theorem nextBlock?_of_cut {f : Frame} {kept lost : Content} (h : kept ++ lost = f.lines)
    (hlost : lost ≠ []) : nextBlock? kept = none := by
  rw [Option.eq_none_iff_forall_ne_some]
  rintro ⟨raw, rest⟩ hfound
  have hwhole := f.nextBlock?_lines []
  rw [List.append_nil, ← h, nextBlock?_append_right hfound lost] at hwhole
  exact hlost (List.append_eq_nil_iff.mp (Prod.mk.inj (Option.some.inj hwhole)).2).2

/-- **Lines of text are passed** as if they were not there. -/
theorem blocks?_line {lineEnd content : Content} (hlineEnd : IsLineEnd lineEnd)
    (hcontent : ¬mark beginMark <:+: content) (rest : Content) :
    blocks? (content ++ (lineEnd ++ rest)) = blocks? rest := by
  obtain ⟨⟨hnewline, hreturn⟩, -⟩ := not_mem_marks
  have hnonempty : mark beginMark ≠ [] := by decide +kernel
  have hnext : nextBlock? (content ++ (lineEnd ++ rest)) = nextBlock? rest := by
    rw [nextBlock?, hlineEnd.seek?_eq hnonempty hnewline hreturn hcontent, nextBlock?]
    cases Text.seek? (mark beginMark) rest <;> rfl
  cases hrest : nextBlock? rest with
  | none => rw [blocks?_of_none (hnext.trans hrest), blocks?_of_none hrest]
  | some found => rw [blocks?_of_some (hnext.trans hrest), blocks?_of_some hrest]

theorem blocks?_of_not_infix {content : Content} (h : ¬mark beginMark <:+: content) :
    blocks? content = some [] := by
  refine blocks?_of_none ?_
  cases hseek : Text.seek? (mark beginMark) content with
  | none => rw [nextBlock?, hseek]; rfl
  | some found =>
    refine absurd ?_ h
    exact ⟨found.1, found.2, (Text.eq_of_seek? hseek).symm⟩

/-! ### Marks in frames -/

/-- **The mark of a certificate's block fills a line** that has as many dashes and both starts and
ends with one. -/
theorem eq_of_certificateMark_infix {content : Content} (hcount : content.count dash = 10)
    (hhead : content.head? = some dash) (hlast : content.getLast? = some dash)
    (h : mark certificateMark <:+: content) : mark certificateMark = content := by
  have hmark : (mark certificateMark).count dash = 10 := by decide +kernel
  obtain ⟨front, back, rfl⟩ := h
  -- the mark has all the dashes of the line, and what stands beside it would have one more
  rw [List.count_append, List.count_append, hmark] at hcount
  have hfront : front = [] := by
    cases front with
    | nil => rfl
    | cons s more =>
      obtain rfl : s = dash := by simpa using hhead
      rw [List.count_cons_self] at hcount
      omega
  have hback : back = [] := by
    rcases List.eq_nil_or_concat back with rfl | ⟨more, s, rfl⟩
    · rfl
    · obtain rfl : s = dash := by simpa using hlast
      rw [List.concat_eq_append, List.count_append, List.count_singleton_self] at hcount
      omega
  rw [hfront, hback, List.nil_append, List.append_nil]

namespace Frame

variable {f : Frame}

theorem count_dash_line {run : Content} (hrun : run.count dash = 5) :
    (run ++ (f.label ++ mark dashes)).count dash = 10 := by
  have hdashes : (mark dashes).count dash = 5 := by decide +kernel
  rw [List.count_append, List.count_append, hrun, hdashes, List.count_eq_zero.mpr f.dash_not_mem]

theorem getLast?_line {run : Content} :
    (run ++ (f.label ++ mark dashes)).getLast? = some dash := by
  have hdashes : (mark dashes).getLast? = some dash := by decide +kernel
  rw [List.getLast?_append, List.getLast?_append, hdashes]
  rfl

theorem certificateMark_eq_firstLine (h : f.label = Armor.label) :
    mark certificateMark = f.firstLine := by
  rw [certificateMark_eq, firstLine, h, List.append_assoc]

/-- **The first line is the mark of a certificate's block** exactly if it has that label. -/
theorem certificateMark_infix_firstLine_iff :
    mark certificateMark <:+: f.firstLine ↔ f.label = Armor.label := by
  have hcount : (mark beginMark).count dash = 5 := by decide +kernel
  constructor
  · intro h
    have hhead : f.firstLine.head? = some dash := by
      rw [firstLine, List.head?_append, head?_marks.1]
      rfl
    have hline := eq_of_certificateMark_infix (count_dash_line hcount) hhead getLast?_line h
    rw [certificateMark_eq, List.append_assoc] at hline
    exact (List.append_cancel_right (List.append_cancel_left hline)).symm
  · intro h
    exact certificateMark_eq_firstLine h ▸ List.infix_refl _

theorem not_certificateMark_infix_lastLine : ¬mark certificateMark <:+: f.lastLine := by
  have hcount : (mark endMark).count dash = 5 := by decide +kernel
  have hhead : f.lastLine.head? = some dash := by
    rw [lastLine, List.head?_append, head?_marks.2.1]
    rfl
  intro h
  have hline : mark certificateMark = f.lastLine :=
    eq_of_certificateMark_infix (count_dash_line hcount) hhead getLast?_line h
  -- the two lines differ in the letter behind the first dashes
  have hletter := congrArg (fun content => content.take 6) hline
  have hend : f.lastLine.take 6 = (mark endMark).take 6 := by
    rw [lastLine, List.take_append_of_le_length (by decide +kernel)]
  rw [hend] at hletter
  revert hletter
  decide +kernel

/-- **A frame holds the mark of a certificate's block** exactly if it has that label. -/
theorem certificateMark_infix_lines_iff :
    mark certificateMark <:+: f.lines ↔ f.label = Armor.label := by
  obtain ⟨-, -, hnewline, hreturn⟩ := not_mem_marks
  have hinner : ¬mark certificateMark <:+: f.inner := mt beginMark_infix f.beginMark_not_infix
  rw [lines, f.isLineEnd.infix_iff hnewline hreturn, f.isLineEnd.infix_iff hnewline hreturn,
    certificateMark_infix_firstLine_iff]
  exact or_iff_left (not_or_intro hinner not_certificateMark_infix_lastLine)

/-- **A frame that is cut off holds the mark** exactly if it has kept the whole first line of a
certificate's block. -/
theorem certificateMark_infix_iff_of_cut {kept lost : Content} (h : kept ++ lost = f.lines) :
    mark certificateMark <:+: kept ↔ f.label = Armor.label ∧ f.firstLine <+: kept := by
  have hkept : kept <+: f.lines := ⟨lost, h⟩
  constructor
  · intro hmark
    have hlabel : f.label = Armor.label :=
      certificateMark_infix_lines_iff.mp (hmark.trans hkept.isInfix)
    have hfirst : f.firstLine <+: f.lines := List.prefix_append _ _
    have hline := certificateMark_eq_firstLine hlabel
    exact ⟨hlabel, List.prefix_of_prefix_length_le hfirst hkept (hline ▸ hmark.length_le)⟩
  · rintro ⟨hlabel, hfirst⟩
    exact (certificateMark_infix_firstLine_iff.mpr hlabel).trans hfirst.isInfix

/-- **The frame carries a body:** its label is a text that is not empty, and the body is what its
payload decodes to. -/
structure Carries (f : Frame) (body : Content) : Prop where
  label_ne_nil : f.label ≠ []
  label_isText : (text? f.label).isSome = true
  decodes : decodePayload? f.payload = some body

theorem Carries.check?_eq {body : Content} (h : f.Carries body) :
    RawBlock.check? ⟨f.label, f.label, f.payload⟩ = some ⟨f.label, body⟩ := by
  have hlabel : f.label.isEmpty = false := by
    rw [List.isEmpty_eq_false_iff]
    exact h.label_ne_nil
  have htext : (text? f.label).isNone = false := by
    rw [← Option.not_isSome, h.label_isText]
    rfl
  rw [RawBlock.check?, hlabel, htext, h.decodes]
  simp

/-- **A frame that carries a body is read** as the block of that body. -/
theorem Carries.blocks?_lines {body : Content} (h : f.Carries body) (rest : Content) :
    blocks? (f.lines ++ rest) = (blocks? rest).map (⟨f.label, body⟩ :: ·) := by
  rw [blocks?_of_some (f.nextBlock?_lines rest), h.check?_eq, Option.bind_some]

end Frame

/-! ### Bundles -/

/-- **A part of a bundle:** the block of a certificate under one of its labels, the block of
something else under another label, or a line of text that holds no mark of a block. -/
inductive Part
  | certificate (f : Frame) (c : Certificate)
      (labelled : f.label ∈ certificateLabels.map Content.ofText) (carries : f.Carries [.der c])
  | other (f : Frame) (body : Content)
      (labelled : f.label ∉ certificateLabels.map Content.ofText) (carries : f.Carries body)
  | line (text : String) (unmarked : ¬mark beginMark <:+: ofText text)

namespace Part

/-- The lines of a part, without the end of the last one. -/
def lines : Part → Content
  | certificate f _ _ _ => f.lines
  | other f _ _ _ => f.lines
  | line text _ => ofText text

/-- How the last line of a part ends. -/
def lineEnd : Part → Content
  | certificate f _ _ _ => f.lineEnd
  | other f _ _ _ => f.lineEnd
  | line _ _ => [newline]

/-- The part as it stands in a bundle. -/
def write (p : Part) : Content := p.lines ++ p.lineEnd

/-- The certificate of a part, if it is the block of one. -/
def certificates : Part → List Certificate
  | certificate _ c _ _ => [c]
  | other _ _ _ _ => []
  | line _ _ => []

/-- The block of a part, if it is one. -/
def blocks : Part → List Block
  | certificate f c _ _ => [⟨f.label, [.der c]⟩]
  | other f body _ _ => [⟨f.label, body⟩]
  | line _ _ => []

/-- **The part announces a certificate** by the first of its two labels. -/
def Announces : Part → Prop
  | certificate f _ _ _ => f.label = label
  | other _ _ _ _ => False
  | line _ _ => False

variable {p : Part}

theorem isLineEnd_lineEnd (p : Part) : IsLineEnd p.lineEnd := by
  cases p with
  | certificate f _ _ _ => exact f.isLineEnd
  | other f _ _ _ => exact f.isLineEnd
  | line _ _ => exact .inl rfl

theorem isSpelledOut_lines (p : Part) : IsSpelledOut p.lines := by
  cases p with
  | certificate f _ _ _ => exact f.isSpelledOut_lines
  | other f _ _ _ => exact f.isSpelledOut_lines
  | line text _ => exact isSpelledOut_ofText text

theorem isSpelledOut_write (p : Part) : IsSpelledOut p.write :=
  isSpelledOut_append_iff.mpr ⟨p.isSpelledOut_lines, p.isLineEnd_lineEnd.isSpelledOut⟩

/-- **A part is read** as the block that it is, if it is one. -/
theorem blocks?_write (p : Part) (rest : Content) :
    blocks? (p.write ++ rest) = (blocks? rest).map (p.blocks ++ ·) := by
  have hend : blocks? (p.lineEnd ++ rest) = blocks? rest := by
    have hnone : ¬mark beginMark <:+: [] := by
      rw [List.infix_nil]
      decide +kernel
    exact blocks?_line p.isLineEnd_lineEnd hnone rest
  rw [write, List.append_assoc]
  cases p with
  | certificate f c _ carries => rw [lines, carries.blocks?_lines, hend]; rfl
  | other f body _ carries => rw [lines, carries.blocks?_lines, hend]; rfl
  | line text unmarked =>
    rw [lines, blocks?_line (isLineEnd_lineEnd _) unmarked, blocks]
    simp

/-- The end of the last line does not matter. -/
theorem blocks?_lines (p : Part) : blocks? p.lines = some p.blocks := by
  have hnothing : blocks? [] = some [] := by
    refine blocks?_of_not_infix ?_
    rw [List.infix_nil]
    decide +kernel
  cases p with
  | certificate f c _ carries =>
    rw [lines, ← List.append_nil f.lines, carries.blocks?_lines, hnothing]
    rfl
  | other f body _ carries =>
    rw [lines, ← List.append_nil f.lines, carries.blocks?_lines, hnothing]
    rfl
  | line text unmarked => exact blocks?_of_not_infix unmarked

theorem bodies_blocks (p : Part) :
    (p.blocks.filter Block.isCertificate).map (·.body) = p.certificates.map fun c => [.der c] := by
  have hlabels (b : Block) :
      b.isCertificate = true ↔ b.label ∈ certificateLabels.map Content.ofText := by
    rw [Block.isCertificate, List.any_eq_true, List.mem_map]
    simp only [decide_eq_true_eq, eq_comm (a := b.label)]
  cases p with
  | certificate f c labelled _ =>
    rw [blocks, List.filter_cons_of_pos ((hlabels _).mpr labelled)]
    rfl
  | other f body labelled _ =>
    rw [blocks, List.filter_cons_of_neg (mt (hlabels _).mp labelled)]
    rfl
  | line _ _ => rfl

theorem certificateMark_infix_lines_iff : mark certificateMark <:+: p.lines ↔ p.Announces := by
  cases p with
  | certificate f c _ _ => exact Frame.certificateMark_infix_lines_iff
  | other f body labelled _ =>
    refine iff_of_false (fun h => labelled ?_) id
    rw [Frame.certificateMark_infix_lines_iff.mp h]
    decide +kernel
  | line text unmarked => exact iff_of_false (mt beginMark_infix unmarked) id

end Part

/-- **How a bundle ends:** with its last whole part, with a part whose last line is not ended, or
with a frame that is cut off somewhere. -/
inductive Ending
  | whole
  | unended (p : Part)
  | cut (f : Frame) (kept lost : Content) (split : kept ++ lost = f.lines) (lost_ne : lost ≠ [])

namespace Ending

/-- What stands at the end. -/
def content : Ending → Content
  | whole => []
  | unended p => p.lines
  | cut _ kept _ _ _ => kept

/-- The certificate of the last part, if it is there as a whole. -/
def certificates : Ending → List Certificate
  | whole => []
  | unended p => p.certificates
  | cut _ _ _ _ _ => []

/-- The block of the last part, if it is there as a whole. -/
def blocks : Ending → List Block
  | whole => []
  | unended p => p.blocks
  | cut _ _ _ _ _ => []

/-- **The ending announces a certificate** by the first of its two labels; a frame that is cut off
does as long as it has its whole first line. -/
def Announces : Ending → Prop
  | whole => False
  | unended p => p.Announces
  | cut f kept _ _ _ => f.label = label ∧ f.firstLine <+: kept

theorem isSpelledOut_content (e : Ending) : IsSpelledOut e.content := by
  cases e with
  | whole => exact fun _ => nofun
  | unended p => exact p.isSpelledOut_lines
  | cut f kept lost split _ =>
    have hwhole := f.isSpelledOut_lines
    rw [← split, isSpelledOut_append_iff] at hwhole
    exact hwhole.1

theorem blocks?_content (e : Ending) : blocks? e.content = some e.blocks := by
  cases e with
  | whole =>
    refine blocks?_of_not_infix ?_
    rw [content, List.infix_nil]
    decide +kernel
  | unended p => exact p.blocks?_lines
  | cut f kept lost split lost_ne => exact blocks?_of_none (nextBlock?_of_cut split lost_ne)

theorem certificateMark_infix_content_iff {e : Ending} :
    mark certificateMark <:+: e.content ↔ e.Announces := by
  cases e with
  | whole =>
    refine iff_of_false ?_ id
    rw [content, List.infix_nil]
    decide +kernel
  | unended p => exact Part.certificateMark_infix_lines_iff
  | cut f kept lost split _ => exact Frame.certificateMark_infix_iff_of_cut split

end Ending

/-- **A bundle:** parts one behind the other, each of them in lines of its own, and an ending. -/
structure Bundle where
  parts : List Part
  ending : Ending

namespace Bundle

/-- The bundle as it stands in a file. -/
def content (b : Bundle) : Content := b.parts.flatMap Part.write ++ b.ending.content

/-- The certificates whose blocks are complete, in their order. -/
def certificates (b : Bundle) : List Certificate :=
  b.parts.flatMap Part.certificates ++ b.ending.certificates

/-- **The bundle announces a certificate:** one of its blocks has the first of the two labels, and
has not lost its first line. -/
def Announces (b : Bundle) : Prop := (∃ p ∈ b.parts, p.Announces) ∨ b.ending.Announces

/-- The blocks that are complete. -/
def blocks (b : Bundle) : List Block := b.parts.flatMap Part.blocks ++ b.ending.blocks

/-- **The blocks of a bundle are read** in their order, and nothing else is. -/
theorem blocks?_content (b : Bundle) : blocks? b.content = some b.blocks := by
  obtain ⟨parts, ending⟩ := b
  unfold content blocks
  induction parts with
  | nil => exact ending.blocks?_content
  | cons p parts ih =>
    rw [List.flatMap_cons, List.append_assoc, p.blocks?_write, ih]
    simp

theorem bodies_blocks (b : Bundle) :
    (b.blocks.filter Block.isCertificate).map (·.body) =
      b.certificates.map fun c => [.der c] := by
  have hending : (b.ending.blocks.filter Block.isCertificate).map (·.body) =
      b.ending.certificates.map fun c => [.der c] := by
    cases b.ending with
    | unended p => exact p.bodies_blocks
    | _ => rfl
  obtain ⟨parts, ending⟩ := b
  unfold blocks certificates
  rw [List.filter_append, List.map_append, List.map_append, hending]
  congr 1
  induction parts with
  | nil => rfl
  | cons p parts ih =>
    rw [List.flatMap_cons, List.flatMap_cons, List.filter_append, List.map_append, List.map_append,
      p.bodies_blocks, ih hending]

theorem isSpelledOut_content (b : Bundle) : IsSpelledOut b.content := by
  refine isSpelledOut_append_iff.mpr ⟨fun s hs => ?_, b.ending.isSpelledOut_content⟩
  obtain ⟨p, -, hs⟩ := List.mem_flatMap.mp hs
  exact p.isSpelledOut_write s hs

/-- **The certificates that are read from a bundle** are those of its complete blocks. -/
theorem certificateBodies?_content (b : Bundle) :
    certificateBodies? b.content = some (b.certificates.map fun c => [.der c]) := by
  rw [certificateBodies?, b.isSpelledOut_content.expand_eq, b.blocks?_content, Option.map_some,
    b.bodies_blocks]

theorem armoredCertificates_content (b : Bundle) :
    b.content.armoredCertificates =
      if b.certificates.isEmpty then .error .malformed else .ok b.certificates := by
  have hall : ∀ cs : List Certificate,
      (cs.map fun c => [Symbol.der c]).mapM encodedCertificate = .ok cs := by
    intro cs
    induction cs with
    | nil => rfl
    | cons c cs ih =>
      rw [List.map_cons, List.mapM_cons, ih]
      rfl
  rw [armoredCertificates, b.certificateBodies?_content]
  simp only [hall]
  rfl

/-- **A bundle is read as armor** exactly if it announces a certificate. -/
theorem holdsArmorMark_content_iff (b : Bundle) :
    b.content.holdsArmorMark = true ↔ b.Announces := by
  obtain ⟨-, -, hnewline, hreturn⟩ := not_mem_marks
  rw [holdsArmorMark, b.isSpelledOut_content.expand_eq, Text.hasRun_iff]
  obtain ⟨parts, ending⟩ := b
  unfold content Announces
  induction parts with
  | nil => simp [Ending.certificateMark_infix_content_iff]
  | cons p parts ih =>
    rw [List.flatMap_cons, Part.write, List.append_assoc, List.append_assoc,
      p.isLineEnd_lineEnd.infix_iff hnewline hreturn, ih, Part.certificateMark_infix_lines_iff,
      ← or_assoc]
    simp only [List.mem_cons, exists_eq_or_imp]

/-- **What a bundle presents** is its first certificate, if it announces one. -/
theorem certificate_of_announces {b : Bundle} (h : b.Announces) :
    b.content.certificate = b.certificates.head?.elim (.error .malformed) .ok := by
  rw [certificate, presented?, if_pos (b.holdsArmorMark_content_iff.mpr h),
    b.certificateBodies?_content]
  cases b.certificates <;> rfl

/-- A bundle that announces none is taken for an encoding, and it is none. -/
theorem certificate_of_not_announces {b : Bundle} (h : ¬b.Announces) :
    b.content.certificate = .error .malformed := by
  rw [certificate, presented?, if_neg (mt b.holdsArmorMark_content_iff.mp h)]
  exact b.isSpelledOut_content.encodedCertificate_eq

end Bundle

/-! ### Blocks that are written -/

/-- The symbol stands for letters of base 64. -/
inductive IsLetters : Symbol → Prop
  | armored (c : Certificate) : IsLetters (.armored c)
  | cutArmored (c : Certificate) : IsLetters (.cutArmored c)
  | armoredKey (key : String) : IsLetters (.armoredKey key)

theorem IsLetters.dropWhile_eq {letters : Symbol} (h : IsLetters letters) (rest : Content) :
    (letters :: rest).dropWhile isSkipped = letters :: rest := by
  cases h <;> rfl

theorem IsLetters.isSpelledOut {letters : Symbol} (h : IsLetters letters) :
    IsSpelledOut [letters] := by
  intro s hs
  obtain rfl := List.mem_singleton.mp hs
  cases h <;> rfl

/-- A mark is too long to stand in one symbol. -/
theorem not_marks_infix_singleton (s : Symbol) :
    ¬mark beginMark <:+: [s] ∧ ¬mark endMark <:+: [s] := by
  have hbegin : 1 < (mark beginMark).length := by decide +kernel
  have hend : 1 < (mark endMark).length := by decide +kernel
  exact ⟨fun h => Nat.not_lt.mpr h.length_le hbegin, fun h => Nat.not_lt.mpr h.length_le hend⟩

/-- **The frame around letters** under a label without dashes. -/
def Frame.around (text : String) (dash_not_mem : dash ∉ ofText text) {letters : Symbol}
    (isLetters : IsLetters letters) : Frame where
  label := ofText text
  inner := [letters]
  lineEnd := [newline]
  isLineEnd := .inl rfl
  spelledOut_label := isSpelledOut_ofText text
  dash_not_mem := dash_not_mem
  spelledOut_inner := isLetters.isSpelledOut
  beginMark_not_infix := (not_marks_infix_singleton letters).1
  endMark_not_infix := (not_marks_infix_singleton letters).2

/-- A frame around letters may be cut off behind them. -/
theorem Frame.append_eq_lines_around {text : String} {dash_not_mem : dash ∉ ofText text}
    {letters : Symbol} (isLetters : IsLetters letters) :
    (around text dash_not_mem isLetters).firstLine ++ [newline, letters] ++
        newline :: (around text dash_not_mem isLetters).lastLine =
      (around text dash_not_mem isLetters).lines :=
  List.append_assoc _ _ _

theorem decodePayload?_letters {letters : Symbol} (h : IsLetters letters) :
    decodePayload? [letters, newline] = decodeLetters? [letters, newline] := by
  have hunix : mark "\n\n" = [newline, newline] := by decide +kernel
  have hother : mark "\r\n\r\n" = [carriageReturn, newline, carriageReturn, newline] := by
    decide +kernel
  have hsplit : splitHeaders [letters, newline] = ([], [letters, newline]) := by
    rw [splitHeaders, hunix, hother]
    cases h <;> rfl
  have hheaders : areHeaders [] = true := by decide +kernel
  rw [decodePayload?, hsplit]
  exact if_pos hheaders

/-- **A frame around letters carries what they encode.** -/
theorem Frame.carries_around {text : String} {dash_not_mem : dash ∉ ofText text}
    {letters : Symbol} {isLetters : IsLetters letters} {body : Content}
    (hnonempty : ofText text ≠ []) (htext : (text? (ofText text)).isSome = true)
    (hbody : decodeLetters? [letters, newline] = some body) :
    (Frame.around text dash_not_mem isLetters).Carries body :=
  have hpayload : (Frame.around text dash_not_mem isLetters).payload = [letters, newline] :=
    isLetters.dropWhile_eq [newline]
  ⟨hnonempty, htext, by rw [hpayload, decodePayload?_letters isLetters, hbody]⟩

/-- The block of a certificate, as the part of a bundle that it is. -/
def Part.ofCertificate (c : Certificate) : Part :=
  .certificate (.around "CERTIFICATE" (by decide +kernel) (.armored c)) c List.mem_cons_self
    (Frame.carries_around (by decide +kernel) (by decide +kernel) rfl)

theorem Part.write_ofCertificate (c : Certificate) : (ofCertificate c).write = Armor.write c := by
  have hfirst : ofText (beginMark ++ "CERTIFICATE" ++ dashes ++ "\n") =
      mark beginMark ++ (label ++ mark dashes) ++ [newline] := by
    decide +kernel
  have hlast : ofText ("\n" ++ endMark ++ "CERTIFICATE" ++ dashes ++ "\n") =
      newline :: (mark endMark ++ (label ++ mark dashes) ++ [newline]) := by
    decide +kernel
  have hlines : (ofCertificate c).lines = mark beginMark ++ (label ++ mark dashes) ++
      ([newline] ++ ([.armored c] ++ [newline] ++ (mark endMark ++ (label ++ mark dashes)))) := rfl
  have hend : (ofCertificate c).lineEnd = [newline] := rfl
  rw [write, hlines, hend, Armor.write, writeBlock, hfirst, hlast]
  simp only [List.append_assoc, List.cons_append, List.nil_append]

/-- The frame of a certificate's block whose letters have lost their end. -/
def Frame.ofUnended (c : Certificate) : Frame :=
  .around "CERTIFICATE" (by decide +kernel) (.cutArmored c)

/-- The block of a certificate without its end, as the ending of a bundle that it is. -/
def Ending.ofUnended (c : Certificate) : Ending :=
  .cut (.ofUnended c) ((Frame.ofUnended c).firstLine ++ [newline, .cutArmored c])
    (newline :: (Frame.ofUnended c).lastLine) (Frame.append_eq_lines_around (.cutArmored c))
    (List.cons_ne_nil _ _)

/-- **Reading armor undoes writing it.** -/
theorem certificate_write (c : Certificate) : (write c).certificate = .ok c := by
  let b : Bundle := ⟨[.ofCertificate c], .whole⟩
  have hcontent : b.content = write c := by
    rw [← Part.write_ofCertificate]
    simp [b, Bundle.content, Ending.content]
  have hannounces : b.Announces := .inl ⟨_, List.mem_cons_self, rfl⟩
  rw [← hcontent, b.certificate_of_announces hannounces]
  rfl

end PeerTrust.Armor
