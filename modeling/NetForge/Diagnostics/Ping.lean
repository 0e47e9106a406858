import NetForge.Calculus.Raising
import NetForge.Python.Pattern

/-! # The output of ping

`parse_ping_output` of `diagnostics/host/icmp_utils.py`. Any number of milliseconds behind a
mark is read as a sample, so the total time of Linux and the summary of Windows are samples as
well. The number of requests is left out: nothing there reads it.
-/

namespace NetForge.Diagnostics

open NetForge.Calculus NetForge.Python NetForge.Python.Pattern

/-- `(\d+(?:\.\d+)?)%\s*(?:packet\s+)?loss`, ignoring case. -/
def lossPattern : Pattern :=
  .seq (.group number) (.seq (ignoringCase "%") (.seq (.star isSpace)
    (.seq (Regex.opt (.seq (ignoringCase "packet") (Regex.plus isSpace))) (ignoringCase "loss"))))

/-- `(\d+(?:\.\d+)?)%`. -/
def percentPattern : Pattern := .seq (.group number) (.one (· == '%'))

/-- `(?:time|zeit|temps|tempo|[=<])`, ignoring case. -/
def sampleMark : Pattern :=
  .alt (ignoringCase "time") (.alt (ignoringCase "zeit") (.alt (ignoringCase "temps")
    (.alt (ignoringCase "tempo") (.one fun c => c == '=' || c == '<'))))

/-- The mark, `\s*` and the number of milliseconds. -/
def samplePattern : Pattern := .seq sampleMark (.seq (.star isSpace) milliseconds)

def threeNumbers : Pattern :=
  .seq (.group number) (.seq (.one (· == '/')) (.seq (.group number) (.seq (.one (· == '/'))
    (.group number))))

/-- `(?:rtt|round-trip)\s+min/avg/max/(?:mdev|stddev)\s*=\s*` and three numbers, ignoring
case. -/
def summaryPattern : Pattern :=
  .seq (.alt (ignoringCase "rtt") (ignoringCase "round-trip")) (.seq (Regex.plus isSpace)
    (.seq (ignoringCase "min/avg/max/") (.seq (.alt (ignoringCase "mdev") (ignoringCase "stddev"))
      (.seq (.star isSpace) (.seq (.one (· == '=')) (.seq (.star isSpace) threeNumbers))))))

/-- `float(match.group(i + 1))`. -/
def groupFloat (groups : List String) (i : Nat) : Except PyError Rat := do
  let text ← index groups i
  floatOfText text

/-- The percentage before `loss`, or the last percentage there is. -/
def parseLoss (output : String) : Except PyError (Option Rat) :=
  match searchTexts lossPattern output with
  | some groups => (groupFloat groups 0).map some
  | none =>
      match (findTexts percentPattern output).getLast? with
      | some text => (floatOfText text).map some
      | none => .ok none

/-- The samples, or the three figures of the summary where there is none. -/
def parseLatencies (output : String) : Except PyError (List Rat) := do
  let latencies ← (findTexts samplePattern output).mapM floatOfText
  if latencies = [] then
    match searchTexts summaryPattern output with
    | some groups => do
        let least ← groupFloat groups 0
        let mean ← groupFloat groups 1
        let greatest ← groupFloat groups 2
        return [least, mean, greatest]
    | none => return []
  else return latencies

def parsePingOutput (output : String) : Except PyError (Option Rat × List Rat) := do
  let loss ← parseLoss output
  let latencies ← parseLatencies output
  return (loss, if loss = some 100 then [] else latencies)

example : parsePingOutput "25% packet loss\nround-trip min/avg/max/stddev = 1.5/2/3/1 ms" =
    .ok (some 25, [3 / 2, 2, 3]) := by decide +kernel

/-! ## What ping prints -/

inductive PingLine (τ : Type)
  | reply (before : List Char) (time : τ) (after : List Char)
  | other (text : List Char)

namespace PingLine

variable {τ : Type}

def text (print : τ → List Char) : PingLine τ → List Char
  | .reply before time after => before ++ ("time".toList ++ print time ++ (after ++ ['\n']))
  | .other text => text ++ ['\n']

def time? : PingLine τ → Option τ
  | .reply _ time _ => some time
  | .other _ => none

end PingLine

def printRtt (rtt : Numeral) : List Char := '=' :: (rtt.text ++ " ms".toList)

inductive ReplyTime
  | exactly (ms : Nat)
  | belowOne

namespace ReplyTime

def print : ReplyTime → List Char
  | .exactly ms => '=' :: ((Numeral.ofNat ms).text ++ "ms".toList)
  | .belowOne => '<' :: ((Numeral.ofNat 1).text ++ "ms".toList)

def value : ReplyTime → Rat
  | .exactly ms => ms
  | .belowOne => 1

end ReplyTime

/-- What Linux ping printed. The lines before the statistics, the banner among them, and the
name of the host are any text. -/
structure LinuxTranscript where
  lines : List (PingLine Numeral)
  host : List Char
  transmitted : Nat
  received : Nat
  loss : Numeral
  total : Nat
  /-- Least, mean, greatest and deviation. -/
  summary : Numeral × Numeral × Numeral × Numeral

namespace LinuxTranscript

def rtts (t : LinuxTranscript) : List Rat := (t.lines.filterMap PingLine.time?).map Numeral.value

def lead (t : LinuxTranscript) : List Char :=
  "\n--- ".toList ++ t.host ++ " ping statistics ---\n".toList ++
    (Numeral.ofNat t.transmitted).text ++ " packets transmitted, ".toList ++
    (Numeral.ofNat t.received).text ++ " received, ".toList ++ t.loss.text ++
    "% packet loss".toList

def summaryLine (t : LinuxTranscript) : List Char :=
  if t.rtts = [] then []
  else
    "rtt min/avg/max/mdev = ".toList ++ t.summary.1.text ++ ['/'] ++ t.summary.2.1.text ++ ['/'] ++
      t.summary.2.2.1.text ++ ['/'] ++ t.summary.2.2.2.text ++ " ms\n".toList

def text (t : LinuxTranscript) : List Char :=
  t.lines.flatMap (PingLine.text printRtt) ++
    (t.lead ++ ',' :: ' ' :: ("time".toList ++ ([' '] ++ ((Numeral.ofNat t.total).text ++
      ("ms".toList ++ ('\n' :: t.summaryLine))))))

end LinuxTranscript

structure WindowsTranscript where
  lines : List (PingLine ReplyTime)
  host : List Char
  sent : Nat
  received : Nat
  lost : Nat
  loss : Numeral
  least : Nat
  greatest : Nat
  mean : Nat

namespace WindowsTranscript

def rtts (t : WindowsTranscript) : List Rat :=
  (t.lines.filterMap PingLine.time?).map ReplyTime.value

def counts (t : WindowsTranscript) : List Char :=
  "\nPing statistics for ".toList ++ t.host ++ ":\n    Packets: Sent = ".toList ++
    (Numeral.ofNat t.sent).text ++ ", Received = ".toList ++ (Numeral.ofNat t.received).text ++
    ", Lost = ".toList ++ (Numeral.ofNat t.lost).text ++ [' ']

def lead (t : WindowsTranscript) : List Char :=
  t.lines.flatMap (PingLine.text ReplyTime.print) ++ t.counts

def summaryLine (t : WindowsTranscript) : List Char :=
  if t.rtts = [] then []
  else
    "Approximate round trip times in milli-seconds:\n    Minimum ".toList ++
      (['='] ++ ([' '] ++ ((Numeral.ofNat t.least).text ++ ("ms".toList ++
        (", Maximum = ".toList ++ (Numeral.ofNat t.greatest).text ++ "ms, Average = ".toList ++
          (Numeral.ofNat t.mean).text ++ "ms\n".toList)))))

def text (t : WindowsTranscript) : List Char :=
  t.lead ++ '(' :: (t.loss.text ++ ("% loss),\n".toList ++ t.summaryLine))

end WindowsTranscript

inductive Transcript
  | linux (t : LinuxTranscript)
  | windows (t : WindowsTranscript)

namespace Transcript

def text : Transcript → List Char
  | .linux t => t.text
  | .windows t => t.text

def loss : Transcript → Numeral
  | .linux t => t.loss
  | .windows t => t.loss

def rtts : Transcript → List Rat
  | .linux t => t.rtts
  | .windows t => t.rtts

end Transcript

/-! ## One sample for every reply, and more -/

def samples (cs : List Char) : List (List (List Char)) := samplePattern.findAll cs

theorem samples_hit (mark blanks more : List Char) (n : Numeral) (rest : List Char)
    (hmark : ∀ cs, sampleMark.parse? (mark ++ cs) = some ⟨[], cs⟩)
    (hblanks : ∀ c ∈ blanks, c = ' ') (hmore : ∀ c ∈ more, c = ' ') :
    samples (mark ++ (blanks ++ (n.text ++ (more ++ ("ms".toList ++ rest))))) =
      [n.text] :: samples rest := by
  have hspace := Numeral.isSpace_of_blanks hblanks
  have hdigit : ∀ c ∈ (n.text ++ (more ++ ("ms".toList ++ rest))).head?, isSpace c = false :=
    fun c hc => isSpace_digit (n.head_text _ hc)
  have hrun := Regex.parse?_star _ hspace hdigit
  have htime := n.milliseconds_parse? hmore rest
  have hparse := Regex.parse?_seq (hmark _) (Regex.parse?_seq hrun htime)
  have hne : mark ++ (blanks ++ (n.text ++ (more ++ "ms".toList))) ≠ [] := by
    simp [n.text_ne_nil]
  have hassoc : mark ++ (blanks ++ (n.text ++ (more ++ ("ms".toList ++ rest)))) =
      (mark ++ (blanks ++ (n.text ++ (more ++ "ms".toList)))) ++ rest := by
    simp only [List.append_assoc]
  rw [hassoc] at hparse ⊢
  exact Regex.findAll_hit hne hparse

/-- A number behind a sign is a sample, whatever stands around it. -/
theorem samples_sign {sign : Char} (hsign : sign = '=' ∨ sign = '<') (before : List Char)
    (blanks more : List Char) (n : Numeral) (rest : List Char) (hblanks : ∀ c ∈ blanks, c = ' ')
    (hmore : ∀ c ∈ more, c = ' ') :
    (samples rest).length + 1 ≤
      (samples (before ++
        ([sign] ++ (blanks ++ (n.text ++ (more ++ ("ms".toList ++ rest))))))).length := by
  have hlater : samplePattern.avoidsLater sign = true := by
    rcases hsign with rfl | rfl <;> decide
  have hmark : ∀ cs, sampleMark.parse? ([sign] ++ cs) = some ⟨[], cs⟩ := by
    rcases hsign with rfl | rfl <;> exact fun _ => rfl
  have hsplit := Regex.findAll_append_later hlater before
    (blanks ++ (n.text ++ (more ++ ("ms".toList ++ rest))))
  have hhit := samples_hit [sign] blanks more n rest hmark hblanks hmore
  have hlength := congrArg List.length hhit
  unfold samples at hlength ⊢
  rw [List.singleton_append] at hlength ⊢
  rw [hsplit, List.length_append, hlength, List.length_cons]
  omega

theorem samples_printRtt (before : List Char) (rtt : Numeral) (rest : List Char) :
    (samples rest).length + 1 ≤ (samples (before ++ (printRtt rtt ++ rest))).length := by
  have hsign := samples_sign (.inl rfl) before [] [' '] rtt rest (by simp)
    (by simp)
  have hprint : printRtt rtt ++ rest =
      ['='] ++ ([] ++ (rtt.text ++ ([' '] ++ ("ms".toList ++ rest)))) := by
    simp [printRtt]
  rw [hprint]
  exact hsign

theorem samples_print (before : List Char) (time : ReplyTime) (rest : List Char) :
    (samples rest).length + 1 ≤ (samples (before ++ (time.print ++ rest))).length := by
  have hnone : ∀ c ∈ ([] : List Char), c = ' ' := by simp
  cases time with
  | exactly ms =>
      have hsign := samples_sign (.inl rfl) before [] [] (Numeral.ofNat ms) rest hnone hnone
      simpa [ReplyTime.print] using hsign
  | belowOne =>
      have hsign := samples_sign (.inr rfl) before [] [] (Numeral.ofNat 1) rest hnone hnone
      simpa [ReplyTime.print] using hsign

/-- Every reply among the lines has its sample, and those behind the lines are further ones. -/
theorem samples_lines {τ : Type} {print : τ → List Char} {k : Nat} {tail : List Char}
    (hprint : ∀ before time rest,
      (samples rest).length + 1 ≤ (samples (before ++ (print time ++ rest))).length)
    (htail : ∀ before, k ≤ (samples (before ++ tail)).length)
    (lines : List (PingLine τ)) (before : List Char) :
    (lines.filterMap PingLine.time?).length + k ≤
      (samples (before ++ (lines.flatMap (PingLine.text print) ++ tail))).length := by
  induction lines generalizing before with
  | nil =>
      have hk := htail before
      simpa using hk
  | cons line lines ih =>
      rw [List.flatMap_cons, List.append_assoc]
      cases line with
      | other text =>
          have hrest := ih (before ++ (text ++ ['\n']))
          rw [List.append_assoc] at hrest
          exact hrest
      | reply lead time after =>
          have hrest := ih (after ++ ['\n'])
          have hhit := hprint (before ++ (lead ++ "time".toList)) time
            ((after ++ ['\n']) ++ (lines.flatMap (PingLine.text print) ++ tail))
          have htext : before ++ (PingLine.text print (.reply lead time after) ++
                (lines.flatMap (PingLine.text print) ++ tail)) =
              before ++ (lead ++ "time".toList) ++ (print time ++ ((after ++ ['\n']) ++
                (lines.flatMap (PingLine.text print) ++ tail))) := by
            simp only [PingLine.text, List.append_assoc]
          have hcount : ((PingLine.reply lead time after :: lines).filterMap
              PingLine.time?).length = (lines.filterMap PingLine.time?).length + 1 := rfl
          rw [htext, hcount]
          omega

theorem samples_linux (t : LinuxTranscript) : t.rtts.length + 1 ≤ (samples t.text).length := by
  have htail : ∀ before : List Char, 1 ≤ (samples (before ++ (t.lead ++ ',' :: ' ' ::
      ("time".toList ++ ([' '] ++ ((Numeral.ofNat t.total).text ++ ("ms".toList ++
        ('\n' :: t.summaryLine)))))))).length := by
    intro before
    have hhit := samples_hit "time".toList [' '] [] (Numeral.ofNat t.total)
      ('\n' :: t.summaryLine) (fun _ => rfl) (by simp) (by simp)
    have hlength := congrArg List.length hhit
    rw [List.length_cons] at hlength
    rw [← List.append_assoc]
    unfold samples at hlength ⊢
    rw [Regex.findAll_append (by decide) rfl, Regex.findAll_cons_none rfl, List.length_append]
    rw [List.nil_append] at hlength
    omega
  have hlines := samples_lines samples_printRtt htail t.lines []
  rw [LinuxTranscript.rtts, List.length_map]
  exact hlines

theorem samples_windows (t : WindowsTranscript) (h : t.rtts ≠ []) :
    t.rtts.length + 1 ≤ (samples t.text).length := by
  have htail : ∀ before : List Char, 1 ≤ (samples (before ++ (t.counts ++ '(' ::
      (t.loss.text ++ ("% loss),\n".toList ++ t.summaryLine))))).length := by
    intro before
    unfold WindowsTranscript.summaryLine
    rw [if_neg h]
    have hsign := samples_sign (.inl rfl)
      (before ++ (t.counts ++ '(' :: (t.loss.text ++ ("% loss),\n".toList ++
        "Approximate round trip times in milli-seconds:\n    Minimum ".toList))))
      [' '] [] (Numeral.ofNat t.least)
      (", Maximum = ".toList ++ (Numeral.ofNat t.greatest).text ++ "ms, Average = ".toList ++
        (Numeral.ofNat t.mean).text ++ "ms\n".toList) (by simp) (by simp)
    simp only [List.append_assoc, List.cons_append, List.nil_append] at hsign ⊢
    omega
  have hlines := samples_lines samples_print htail t.lines []
  rw [WindowsTranscript.rtts, List.length_map, WindowsTranscript.text, WindowsTranscript.lead,
    List.append_assoc]
  exact hlines

/-! ## What is returned -/

theorem parsePingOutput_ok_iff {output : String} {loss : Rat} {latencies : List Rat}
    (h : loss ≠ 100) :
    parsePingOutput output = .ok (some loss, latencies) ↔
      parseLoss output = .ok (some loss) ∧ parseLatencies output = .ok latencies := by
  unfold parsePingOutput
  constructor
  · intro hparse
    obtain ⟨loss', hloss, hparse⟩ := ok_of_bind.mp hparse
    obtain ⟨latencies', hlatencies, hparse⟩ := ok_of_bind.mp hparse
    have hpair := Except.ok.inj hparse
    obtain ⟨rfl, hkept⟩ := Prod.mk.inj hpair
    rw [if_neg (by simpa using h)] at hkept
    rw [hloss, hlatencies, hkept]
    exact ⟨rfl, rfl⟩
  · intro ⟨hloss, hlatencies⟩
    rw [hloss, ok_bind, hlatencies, ok_bind, if_neg (by simpa using h)]
    rfl

theorem length_of_parseLatencies {output : String} {latencies : List Rat}
    (h : parseLatencies output = .ok latencies) (hne : findTexts samplePattern output ≠ []) :
    latencies.length = (findTexts samplePattern output).length := by
  unfold parseLatencies at h
  obtain ⟨found, hfound, h⟩ := ok_of_bind.mp h
  have hlength := length_of_mapM_ok hfound
  have hfound_ne : found ≠ [] := by
    intro hnil
    rw [hnil] at hlength
    exact hne (List.length_eq_zero_iff.mp hlength.symm)
  rw [if_neg hfound_ne] at h
  obtain rfl : found = latencies := Except.ok.inj h
  exact hlength

theorem parseLatencies_nil_iff {output : String} :
    parseLatencies output = .ok [] ↔
      findTexts samplePattern output = [] ∧ searchTexts summaryPattern output = none := by
  constructor
  · intro h
    have hnone : findTexts samplePattern output = [] := by
      by_contra hne
      have hlength := length_of_parseLatencies h hne
      exact hne (List.length_eq_zero_iff.mp hlength.symm)
    refine ⟨hnone, ?_⟩
    unfold parseLatencies at h
    rw [hnone, List.mapM_nil] at h
    cases hsummary : searchTexts summaryPattern output with
    | none => rfl
    | some groups =>
        rw [hsummary] at h
        change (do
          let least ← groupFloat groups 0
          let mean ← groupFloat groups 1
          let greatest ← groupFloat groups 2
          return [least, mean, greatest]) = Except.ok [] at h
        obtain ⟨least, -, h⟩ := ok_of_bind.mp h
        obtain ⟨mean, -, h⟩ := ok_of_bind.mp h
        obtain ⟨greatest, -, h⟩ := ok_of_bind.mp h
        cases h
  · intro ⟨hnone, hsummary⟩
    unfold parseLatencies
    rw [hnone, hsummary]
    rfl

/-! ## When a transcript is recovered -/

/-- No sample and no summary is read from `lead`, and no other percentage of loss. -/
structure ReadsNothing (lead : List Char) (loss : Rat) : Prop where
  samples : findTexts samplePattern (String.ofList lead) = []
  summary : searchTexts summaryPattern (String.ofList lead) = none
  loss : ∀ groups ∈ searchTexts lossPattern (String.ofList lead), groupFloat groups 0 = .ok loss

/-- No reply was printed, and nothing is read from the names and other lines before the
percentage. -/
def Transcript.Silent : Transcript → Prop
  | .linux _ => False
  | .windows t => t.rtts = [] ∧ ReadsNothing t.lead t.loss.value

theorem samplePattern_needs : samplePattern.Needs (folds 'm') := by
  have hunit : (ignoringCase "ms").Needs (folds 'm') := (Regex.needs_one _).seq_left _
  have hmilliseconds : milliseconds.Needs (folds 'm') := (hunit.seq_right _).seq_right _
  exact (hmilliseconds.seq_right _).seq_right _

theorem summaryPattern_needs : summaryPattern.Needs (· == '/') := by
  have hslash : (Regex.one (· == '/')).Needs (· == '/') := Regex.needs_one _
  have hnumbers : threeNumbers.Needs (· == '/') := (hslash.seq_left _).seq_right _
  have hfigures : (Regex.seq (.star isSpace) (.seq (.one (· == '=')) (.seq (.star isSpace)
      threeNumbers))).Needs (· == '/') := ((hnumbers.seq_right _).seq_right _).seq_right _
  exact (((hfigures.seq_right _).seq_right _).seq_right _).seq_right _

theorem lossText_none {p : Char → Bool} (hnumeral : Numeral.chars.any p = false)
    (htext : "% loss),\n".toList.any p = false) (loss : Numeral) :
    ∀ c ∈ loss.text ++ "% loss),\n".toList, p c = false := by
  intro c hc
  rcases List.mem_append.mp hc with hloss | hrest
  · exact loss.forall_mem_text hnumeral c hloss
  · exact eq_false_of_any htext hrest

namespace WindowsTranscript

theorem text_of_no_reply {t : WindowsTranscript} (h : t.rtts = []) :
    t.text = t.lead ++ '(' :: (t.loss.text ++ "% loss),\n".toList) := by
  rw [text, summaryLine, if_pos h, List.append_nil]

theorem findTexts_sample {t : WindowsTranscript} (h : t.rtts = []) :
    findTexts samplePattern (String.ofList t.text) =
      findTexts samplePattern (String.ofList t.lead) := by
  have hsplit := Regex.findAll_append (r := samplePattern) (c := '(') (by decide) rfl t.lead
    (t.loss.text ++ "% loss),\n".toList)
  have hrest := Regex.findAll_of_needs samplePattern_needs
    (lossText_none (by decide) (by decide) t.loss)
  rw [findTexts, findTexts, String.toList_ofList, String.toList_ofList, text_of_no_reply h, hsplit,
    hrest, List.append_nil]

theorem searchTexts_summary {t : WindowsTranscript} (h : t.rtts = []) :
    searchTexts summaryPattern (String.ofList t.text) =
      searchTexts summaryPattern (String.ofList t.lead) := by
  have hsplit := Regex.search_append (r := summaryPattern) (c := '(') (by decide) rfl t.lead
    (t.loss.text ++ "% loss),\n".toList)
  have hrest := Regex.search_of_needs summaryPattern_needs
    (lossText_none (by decide) (by decide) t.loss)
  rw [searchTexts, searchTexts, String.toList_ofList, String.toList_ofList, text_of_no_reply h,
    hsplit, hrest, Option.or_none]

/-- The percentage is found behind the bracket, unless one is found before it. -/
theorem searchTexts_loss {t : WindowsTranscript} (h : t.rtts = []) :
    searchTexts lossPattern (String.ofList t.text) =
      (searchTexts lossPattern (String.ofList t.lead)).or (some [String.ofList t.loss.text]) := by
  have hsplit := Regex.search_append (r := lossPattern) (c := '(') (by decide) rfl t.lead
    (t.loss.text ++ "% loss),\n".toList)
  have hnumber := Regex.parse?_group (t.loss.number_parse? "% loss),\n".toList
    (Regex.forall_head_cons (by decide) _))
  have hhit := Regex.search_hit (Regex.parse?_seq hnumber (s := .seq (ignoringCase "%")
    (.seq (.star isSpace) (.seq (Regex.opt (.seq (ignoringCase "packet") (Regex.plus isSpace)))
      (ignoringCase "loss")))) (n := ⟨[], "),\n".toList⟩) rfl)
  have hfound : lossPattern.search (t.loss.text ++ "% loss),\n".toList) = some [t.loss.text] := hhit
  rw [searchTexts, searchTexts, String.toList_ofList, String.toList_ofList, text_of_no_reply h,
    hsplit, hfound, Option.map_or]
  rfl

theorem groupFloat_text (n : Numeral) : groupFloat [String.ofList n.text] 0 = .ok n.value := by
  have hindex : index [String.ofList n.text] 0 = .ok (String.ofList n.text) := rfl
  rw [groupFloat, hindex, ok_bind, n.floatOfText_text]

/-- Without a reply the percentage and no latency are returned exactly when nothing is read
before the bracket. -/
theorem parsePingOutput_iff {t : WindowsTranscript} (h : t.rtts = []) (hloss : t.loss.value ≠ 100) :
    parsePingOutput (String.ofList t.text) = .ok (some t.loss.value, []) ↔
      ReadsNothing t.lead t.loss.value := by
  have htail := groupFloat_text t.loss
  have hsome : ∀ x : Except PyError Rat,
      x.map some = .ok (some t.loss.value) ↔ x = .ok t.loss.value := by
    intro x
    cases x <;> simp [Except.map]
  have hparseLoss : parseLoss (String.ofList t.text) = .ok (some t.loss.value) ↔
      ∀ groups ∈ searchTexts lossPattern (String.ofList t.lead),
        groupFloat groups 0 = .ok t.loss.value := by
    unfold parseLoss
    rw [searchTexts_loss h]
    cases searchTexts lossPattern (String.ofList t.lead) with
    | none =>
        show (groupFloat [String.ofList t.loss.text] 0).map some = _ ↔ _
        rw [hsome, htail]
        simp
    | some groups =>
        show (groupFloat groups 0).map some = _ ↔ _
        rw [hsome]
        simp
  rw [parsePingOutput_ok_iff hloss, hparseLoss, parseLatencies_nil_iff, findTexts_sample h,
    searchTexts_summary h]
  constructor
  · intro ⟨hloss, hsamples, hsummary⟩
    exact ⟨hsamples, hsummary, hloss⟩
  · intro hreads
    exact ⟨hreads.loss, hreads.samples, hreads.summary⟩

end WindowsTranscript

/-- A text with more samples than round trip times is not recovered. -/
theorem not_recovered {cs : List Char} {loss : Rat} {rtts : List Rat} (hloss : loss ≠ 100)
    (h : rtts.length + 1 ≤ (samples cs).length) :
    parsePingOutput (String.ofList cs) ≠ .ok (some loss, rtts) := by
  intro hparse
  have hlength : (findTexts samplePattern (String.ofList cs)).length = (samples cs).length := by
    rw [findTexts, String.toList_ofList, List.length_map]
    rfl
  have hne : findTexts samplePattern (String.ofList cs) ≠ [] := by
    intro hnil
    rw [hnil, List.length_nil] at hlength
    omega
  have hparsed := length_of_parseLatencies ((parsePingOutput_ok_iff hloss).mp hparse).2 hne
  omega

/-- Percentage and round trip times are returned as printed exactly where no round trip time
was printed and nothing else reads as one. -/
theorem parsePingOutput_recovers_iff (t : Transcript) (h : t.loss.value < 100) :
    parsePingOutput (String.ofList t.text) = .ok (some t.loss.value, t.rtts) ↔ t.Silent := by
  have hloss : t.loss.value ≠ 100 := h.ne
  cases t with
  | linux t =>
      constructor
      · exact fun hparse => not_recovered hloss (samples_linux t) hparse
      · intro hsilent
        exact hsilent.elim
  | windows t =>
      by_cases hrtts : t.rtts = []
      · have hiff := WindowsTranscript.parsePingOutput_iff hrtts hloss
        have hempty : (Transcript.windows t).rtts = [] := hrtts
        rw [hempty]
        constructor
        · intro hparse
          exact ⟨hrtts, hiff.mp hparse⟩
        · intro hsilent
          exact hiff.mpr hsilent.2
      · constructor
        · exact fun hparse => (not_recovered hloss (samples_windows t hrtts) hparse).elim
        · intro hsilent
          exact absurd hsilent.1 hrtts

/-- One packet, answered by a router that has no way to the host. -/
def unreachable : WindowsTranscript :=
  { lines := [.other "Reply from 10.0.0.1: Destination host unreachable.".toList]
    host := "10.9.9.9".toList
    sent := 1
    received := 1
    lost := 0
    loss := .ofNat 0
    least := 0
    greatest := 0
    mean := 0 }

theorem parsePingOutput_recovers_unreachable :
    unreachable.rtts = [] ∧
      parsePingOutput (String.ofList (Transcript.windows unreachable).text) =
        .ok (some (Transcript.windows unreachable).loss.value,
          (Transcript.windows unreachable).rtts) := by
  have hreads : ReadsNothing unreachable.lead unreachable.loss.value :=
    { samples := by
        rw [findTexts, String.toList_ofList]
        decide +kernel
      summary := by
        rw [searchTexts, String.toList_ofList]
        decide +kernel
      loss := by
        rw [searchTexts, String.toList_ofList]
        decide +kernel }
  exact ⟨rfl,
    (parsePingOutput_recovers_iff (.windows unreachable) (by decide +kernel)).mpr ⟨rfl, hreads⟩⟩

def twoReplies : LinuxTranscript :=
  { lines :=
      [.reply "64 bytes from 8.8.8.8: icmp_seq=1 ttl=57 ".toList (.tenths 12 3) [],
        .reply "64 bytes from 8.8.8.8: icmp_seq=2 ttl=57 ".toList (.tenths 12 5) []]
    host := "8.8.8.8".toList
    transmitted := 2
    received := 2
    loss := .ofNat 0
    total := 1001
    summary := (.tenths 12 3, .tenths 12 4, .tenths 12 5, .tenths 0 1) }

/-- The total time of Linux ping is read as one more sample. -/
theorem total_time_is_a_sample :
    (¬ ∀ t : Transcript, t.loss.value < 100 →
        parsePingOutput (String.ofList t.text) = .ok (some t.loss.value, t.rtts)) ∧
      findTexts samplePattern (String.ofList twoReplies.text) = ["12.3", "12.5", "1001"] := by
  constructor
  · intro hclaim
    have hloss : twoReplies.loss.value < 100 := by decide +kernel
    have hparsed := hclaim (.linux twoReplies) hloss
    exact not_recovered hloss.ne (samples_linux twoReplies) hparsed
  · rw [findTexts, String.toList_ofList]
    decide +kernel

end NetForge.Diagnostics
