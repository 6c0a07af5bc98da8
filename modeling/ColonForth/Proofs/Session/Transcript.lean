import ColonForth.Proofs.Dictionary.Reachable
import ColonForth.Proofs.Session.Reading
import ColonForth.Proofs.Session.Telling
import ColonForth.Proofs.Text.OneLine

/-! The transcript of a session. Texts of the input come back in error messages only after they have
been split into words, so no blank of the input but the space can reach the output. -/
namespace ColonForth
open Text
open ColonForth.Action

/-! ### The texts of words -/

/-- The text is one line, and so is the message if there is an error. The error is one that a
session survives. -/
structure TellsOneLine (text : String) (result : Except Error Flow) : Prop where
  text : IsOneLine text
  error : ∀ e, result = .error e → e.isRecoverable = true ∧ IsOneLine e.message

theorem tellsOneLine_of_ok {text : String} (h : IsOneLine text) (flow : Flow) :
    TellsOneLine text (.ok flow) :=
  ⟨h, fun e he => by cases he⟩

theorem tellsOneLine_failing (m : Machine) {e : Error} (he : e.isRecoverable = true)
    (h : IsOneLine e.message) : TellsOneLine (m.failing e).text (m.failing e).result :=
  ⟨isOneLine_empty, fun e' he' => by cases he'; exact ⟨he, h⟩⟩

namespace Machine

variable {m : Machine}

theorem tellsOneLine_perform (m : Machine) (b : Builtin) :
    TellsOneLine (m.perform b).text (m.perform b).result := by
  have hunderflow : TellsOneLine (m.failing .stackUnderflow).text
      (m.failing .stackUnderflow).result :=
    tellsOneLine_failing m rfl (by decide)
  cases b with
  | bye => exact tellsOneLine_of_ok isOneLine_empty .bye
  | print =>
    cases hpop : m.stack.pop? with
    | none =>
      simp only [perform_print, hpop]
      exact hunderflow
    | some top =>
      simp only [perform_print, hpop, Effect.text, Numeral.join_decimalParts]
      exact tellsOneLine_of_ok (isOneLine_decimal top.1) .proceed
  | printStack =>
    apply tellsOneLine_of_ok
    apply isOneLine_join
    intro text htext
    rcases List.mem_cons.mp htext with rfl | htext
    · have hsize := isOneLine_repr m.stack.size
      exact (IsOneLine.append (by decide) hsize).append (by decide)
    · obtain ⟨n, -, rfl⟩ := List.mem_map.mp htext
      exact (isOneLine_decimal n).append (by decide)
  | add =>
    cases hadd : m.stack.add? with
    | none =>
      simp only [perform_add, hadd]
      exact hunderflow
    | some sum =>
      simp only [perform_add, hadd]
      exact tellsOneLine_of_ok isOneLine_empty .proceed

theorem tellsOneLine_define (m : Machine) {clause : String} (h : IsOneLine clause) :
    TellsOneLine (m.define clause).text (m.define clause).result := by
  unfold define
  split
  · exact tellsOneLine_of_ok isOneLine_empty .proceed
  · next e he =>
    obtain rfl := Definition.ofClause_of_error he
    exact tellsOneLine_failing m rfl (IsOneLine.append (by decide) h)

/-- A word whose text is one line leads to bodies and errors that are so, too. -/
theorem tellsOneLine_evalWithin (h : m.dictionary.WellWorded) {word : String}
    (hword : IsOneLine word) (budget : Nat) :
    TellsOneLine (m.evalWithin budget word).text (m.evalWithin budget word).result := by
  -- The induction goes along the chain of bodies, each of which is one line again.
  fun_induction evalWithin m budget word with
  | case1 budget word b hmeaning => exact tellsOneLine_perform m b
  | case2 word body hmeaning => exact tellsOneLine_failing m rfl (hword.append (by decide))
  | case3 word body hmeaning budget ih =>
    apply ih
    have halias := (meaning_eq_entry_iff m word body).mp hmeaning
    obtain ⟨ws, hws, rfl⟩ := h.exists_words_of_alias halias
    exact isOneLine_joinWords fun w hw => (hws w hw).1.isOneLine
  | case4 budget word hmeaning => exact tellsOneLine_define m hword
  | case5 budget word n hmeaning => exact tellsOneLine_of_ok isOneLine_empty .proceed
  | case6 budget word hmeaning => exact tellsOneLine_failing m rfl (hword.append (by decide))

end Machine

theorem isOneLine_token {line token : String} {tokens : List String}
    (htokens : foldClause (words line) = .ok tokens) (htoken : token ∈ tokens) :
    IsOneLine token := by
  by_cases hclause : IsClauseOf token (words line)
  · obtain ⟨-, inner, hinner, rfl⟩ := hclause.exists_inner htokens
    have hwords := isWord_of_mem_clause fun w hw => isWord_of_mem_words (hinner w hw).1
    exact isOneLine_joinWords fun w hw => (hwords w hw).isOneLine
  · exact (isWord_of_mem_words (mem_of_foldClause htokens htoken hclause).1).isOneLine

/-! ### The answers to lines -/

/-- What is written for a line that comes to the result: a line of text, which `bye` leaves without
its end. -/
inductive IsAnswer : String → Except Error Flow → Prop
  | proceed (report : String) (h : IsOneLine report) : IsAnswer (report ++ "\n") (.ok .proceed)
  | bye (report : String) (h : IsOneLine report) : IsAnswer report (.ok .bye)

theorem tells_evalTokens {tokens : List String}
    (htokens : ∀ token ∈ tokens, IsOneLine token ∧
      ∀ m : Machine, m.dictionary.WellWorded → (m.evalWord token).machine.dictionary.WellWorded) :
    (evalTokens tokens).Tells (fun m => m.dictionary.WellWorded) TellsOneLine := by
  apply tells_untilBye (tellsOneLine_of_ok isOneLine_empty .proceed)
  · intro token htoken m hm
    obtain ⟨hline, hkeeps⟩ := htokens token htoken
    exact ⟨_, _, _, run_evalToken_endless token m, hkeeps m hm,
      Machine.tellsOneLine_evalWithin hm hline m.maxDepth⟩
  · intro text later result htext hlater
    exact ⟨htext.text.append hlater.text, hlater.error⟩

theorem tells_report {P : Machine → Prop} {text : String} {result : Except Error Flow}
    (h : TellsOneLine text result) :
    (report result).Tells P fun later flow => IsAnswer (text ++ later) flow := by
  have hline : ∀ said, IsOneLine said →
      (sayLine said).Tells P fun later flow => IsAnswer (text ++ later) flow := by
    intro said hsaid
    apply (tells_sayLine said).mono
    rintro later flow ⟨rfl, rfl⟩
    rw [← String.append_assoc]
    exact .proceed _ (h.text.append hsaid)
  unfold report
  split
  · exact tells_pure (.bye _ (h.text.append isOneLine_empty))
  · exact hline " ok" (by decide)
  · next e =>
    obtain ⟨hrecoverable, hmessage⟩ := h.error e rfl
    rw [if_pos hrecoverable]
    exact hline e.message hmessage

theorem tells_interpretLine (line : String) :
    (interpretLine line).Tells (fun m => m.dictionary.WellWorded) IsAnswer := by
  unfold interpretLine
  split
  · apply (tells_sayLine "").mono
    rintro text result ⟨rfl, rfl⟩
    exact .proceed "" isOneLine_empty
  · next tokens htokens =>
    have htells : (evalTokens tokens).Tells (fun m => m.dictionary.WellWorded) TellsOneLine :=
      tells_evalTokens fun token htoken => ⟨isOneLine_token htokens htoken,
        fun m hm => Machine.wellWorded_evalWord htokens htoken hm⟩
    apply htells.attempt.bind
    · rintro text e ⟨inner, hinner, -⟩
      cases hinner
    · rintro text result ⟨inner, hinner, htext⟩
      cases hinner
      exact tells_report htext

theorem IsAnswer.prepend {s text : String} {result : Except Error Flow} (hs : IsOneLine s)
    (h : IsAnswer text result) : IsAnswer (s ++ text) result := by
  cases h with
  | proceed report hreport =>
    rw [← String.append_assoc]
    exact .proceed _ (hs.append hreport)
  | bye report hreport => exact .bye _ (hs.append hreport)

namespace Session

theorem tells_echoLine {P : Machine → Prop} (echo : Bool) (line : String) :
    (echoLine echo line).Tells P fun text result => IsOneLine text ∧ result = .ok () := by
  unfold echoLine
  split
  · apply (tells_say _).mono
    rintro text result ⟨rfl, rfl⟩
    have hlength := isOneLine_repr line.length
    exact ⟨(IsOneLine.append (by decide) hlength).append (by decide), rfl⟩
  · exact tells_pure ⟨isOneLine_empty, rfl⟩

/-- What a session tells of a line is the echo and what the line tells. -/
theorem tells_takeLine_of {P : Machine → Prop} {Q : String → Except Error Flow → Prop} {echo : Bool}
    {raw : List UInt8} (h : (interpretLine (Utf8.decodeLossy raw)).Tells P Q)
    (hok : ∀ text e, ¬ Q text (.error e))
    (hecho : ∀ s text result, IsOneLine s → Q text result → Q (s ++ text) result) :
    (takeLine echo raw).Tells P Q := by
  -- Without refusals neither the echo nor the line nor the flush fails.
  apply (tells_echoLine echo _).bind
  · rintro text e ⟨-, hresult⟩
    cases hresult
  rintro text _ ⟨htext, -⟩
  apply h.bind
  · intro later e hlater
    exact absurd hlater (hok later e)
  intro later flow hlater
  apply tells_flush.bind
  · rintro last e ⟨-, hresult⟩
    cases hresult
  rintro last _ ⟨rfl, -⟩
  apply tells_pure
  rw [String.append_empty, String.append_empty]
  exact hecho text later _ htext hlater

/-- The step of a session: a line is answered, and the dictionary stays well worded. -/
theorem tells_takeLine (echo : Bool) (raw : List UInt8) :
    (takeLine echo raw).Tells (fun m => m.dictionary.WellWorded) IsAnswer := by
  apply tells_takeLine_of (tells_interpretLine _)
  · intro text e h
    cases h
  · intro s text result hs h
    exact h.prepend hs

/-! ### Sessions -/

/-- The session answers the lines with the pieces, one for each line that it takes. A line of text
that a newline ends answers a line that lets the session proceed, and one without its end answers
the line that says `bye`. -/
inductive Transcript (echo : Bool) :
    Machine → List (List UInt8) → List String → SessionEnd → Prop
  | endOfInput (m : Machine) : Transcript echo m [] [] .endOfInput
  | bye {m here : Machine} {raw : List UInt8} {report : String} (behind : List (List UInt8))
      (hrun : (takeLine echo raw).run m .endless =
        ⟨here, .endless, Utf8.encode report, .ok .bye⟩)
      (hreport : IsOneLine report) : Transcript echo m (raw :: behind) [report] .bye
  | proceed {m here : Machine} {raw : List UInt8} {lines : List (List UInt8)} {report : String}
      {pieces : List String} {ending : SessionEnd}
      (hrun : (takeLine echo raw).run m .endless =
        ⟨here, .endless, Utf8.encode (report ++ "\n"), .ok .proceed⟩)
      (hreport : IsOneLine report) (hbehind : Transcript echo here lines pieces ending) :
      Transcript echo m (raw :: lines) ((report ++ "\n") :: pieces) ending

variable {echo : Bool} {m : Machine} {lines : List (List UInt8)} {pieces : List String}
  {ending : SessionEnd}

theorem exists_transcript (h : m.dictionary.WellWorded) (lines : List (List UInt8)) :
    ∃ pieces ending, Transcript echo m lines pieces ending := by
  induction lines generalizing m with
  | nil => exact ⟨[], .endOfInput, .endOfInput m⟩
  | cons raw lines ih =>
    obtain ⟨here, text, result, hrun, hhere, hanswer⟩ := tells_takeLine echo raw m h
    cases hanswer with
    | proceed report hreport =>
      obtain ⟨pieces, ending, hbehind⟩ := ih hhere
      exact ⟨_, ending, .proceed hrun hreport hbehind⟩
    | bye report hreport => exact ⟨_, .bye, .bye lines hrun hreport⟩

theorem Transcript.exists_run_lines (h : Transcript echo m lines pieces ending) :
    ∃ here flow, (untilBye (takeLine echo) lines).run m .endless =
        ⟨here, .endless, Utf8.encode (String.join pieces), .ok flow⟩ ∧
      (finish .endOfInput flow).run here .endless = ⟨here, .endless, [], .ok ending⟩ := by
  induction h with
  | endOfInput m => exact ⟨m, .proceed, rfl, rfl⟩
  | @bye m here raw report behind hrun hreport =>
    refine ⟨here, .bye, ?_, rfl⟩
    rw [run_untilBye_cons_of_stop (by simp [hrun]), hrun]
    simp
  | @proceed m here raw lines report pieces ending hrun hreport hbehind ih =>
    obtain ⟨last, flow, hlast, hfinish⟩ := ih
    refine ⟨last, flow, ?_, hfinish⟩
    rw [run_untilBye_cons_of_proceed hrun, hlast, String.join_cons,
      Utf8.encode_append (report ++ "\n")]

theorem Transcript.exists_run {input : Input} (h : Transcript echo m input.lines pieces ending)
    (hinput : input.ending = .endOfInput) :
    ∃ here, (run echo input).run m .endless =
      ⟨here, .endless, Utf8.encode (String.join pieces), .ok ending⟩ := by
  obtain ⟨here, flow, hrun, hfinish⟩ := h.exists_run_lines
  have hflow : ((untilBye (takeLine echo) input.lines).run m .endless).result = .ok flow := by
    rw [hrun]
  refine ⟨here, ?_⟩
  rw [run_eq, run_bind_of_ok hflow, hrun, hinput]
  simp only [hfinish, List.append_nil]

theorem Transcript.eq_of_isBlank (h : Transcript echo m lines pieces ending) :
    ∀ c ∈ (String.join pieces).toList, isBlank c = true → c = ' ' ∨ c = '\n' := by
  induction h with
  | endOfInput m => simp
  | bye behind hrun hreport =>
    intro c hc hblank
    exact Or.inl (hreport c (by simpa using hc) hblank)
  | proceed hrun hreport hbehind ih =>
    intro c hc hblank
    simp only [String.join_cons, String.toList_append, List.mem_append] at hc
    rcases hc with (hc | hc) | hc
    · exact Or.inl (hreport c hc hblank)
    · exact Or.inr (by simpa using hc)
    · exact ih c hc hblank

theorem Transcript.cutLines_of_endOfInput (h : Transcript echo m lines pieces .endOfInput) :
    pieces.length = lines.length ∧
      cutLines (Utf8.encode (String.join pieces)) = (pieces.map Utf8.encode, []) := by
  generalize hending : SessionEnd.endOfInput = ending at h
  induction h with
  | endOfInput m => exact ⟨rfl, rfl⟩
  | bye behind hrun hreport => cases hending
  | proceed hrun hreport hbehind ih =>
    obtain ⟨hlength, hcut⟩ := ih hending
    refine ⟨by simp [hlength], ?_⟩
    rw [String.join_cons, cutLines_encode_append hreport, hcut]
    rfl

theorem Transcript.cutLines_of_bye (h : Transcript echo m lines pieces .bye) :
    ∃ before last, pieces = before ++ [last] ∧
      cutLines (Utf8.encode (String.join pieces)) = (before.map Utf8.encode, Utf8.encode last) := by
  generalize hending : SessionEnd.bye = ending at h
  induction h with
  | endOfInput m => cases hending
  | @bye m here raw report behind hrun hreport =>
    refine ⟨[], report, rfl, ?_⟩
    rw [String.join_cons, String.join_nil, String.append_empty]
    exact cutLines_of_newline_notMem hreport.newlineByte_notMem_encode
  | @proceed m here raw lines report pieces ending hrun hreport hbehind ih =>
    obtain ⟨before, last, rfl, hcut⟩ := ih hending
    refine ⟨(report ++ "\n") :: before, last, rfl, ?_⟩
    rw [String.join_cons, cutLines_encode_append hreport, hcut]
    rfl

theorem areLinesOf_lines (bytes : List UInt8) :
    AreLinesOf (Input.lines ⟨bytes, .endOfInput⟩) bytes := by
  have hended : ∀ line ∈ (cutLines bytes).1,
      ∃ body, line = body ++ [newlineByte] ∧ newlineByte ∉ body :=
    fun line hline => exists_of_mem_cutLines hline
  have hlines := areLinesOf_append hended (newline_not_mem_tail bytes)
  rw [flatten_cutLines] at hlines
  exact hlines

/-- Whatever bytes a session is given, it ends with `bye` or at the end of the input, and it answers
each line that it takes with one line of text, of which only `bye` leaves out the end. No other
blanks than spaces and these ends are in the output, so the answers are the lines of the output. -/
theorem run_answers_each_line (maxDepth : Nat) (echo : Bool) (bytes : List UInt8) :
    let lines := Input.lines ⟨bytes, .endOfInput⟩
    let done := (run echo ⟨bytes, .endOfInput⟩).run (.fresh maxDepth) .endless
    AreLinesOf lines bytes ∧ ∃ pieces ending, done.result = .ok ending ∧
      done.written = Utf8.encode (String.join pieces) ∧
      Transcript echo (.fresh maxDepth) lines pieces ending ∧
      (∀ c ∈ (String.join pieces).toList, isBlank c = true → c = ' ' ∨ c = '\n') ∧
      (ending = .endOfInput → pieces.length = lines.length ∧
        cutLines done.written = (pieces.map Utf8.encode, [])) ∧
      (ending = .bye → ∃ before last, pieces = before ++ [last] ∧
        cutLines done.written = (before.map Utf8.encode, Utf8.encode last)) := by
  intro lines done
  have hworded : (Machine.fresh maxDepth).dictionary.WellWorded := Dictionary.wellWorded_seeded
  obtain ⟨pieces, ending, htranscript⟩ : ∃ pieces ending,
      Transcript echo (.fresh maxDepth) lines pieces ending := exists_transcript hworded lines
  obtain ⟨here, hrun⟩ := htranscript.exists_run rfl
  have hdone : done = ⟨here, .endless, Utf8.encode (String.join pieces), .ok ending⟩ := hrun
  refine ⟨areLinesOf_lines bytes, pieces, ending, by rw [hdone], by rw [hdone], htranscript,
    htranscript.eq_of_isBlank, ?_, ?_⟩
  · rintro rfl
    rw [hdone]
    exact htranscript.cutLines_of_endOfInput
  · rintro rfl
    rw [hdone]
    exact htranscript.cutLines_of_bye

/-- The blank U+0085 separates words, so that a space stands for it in the message. -/
example : ((run false ⟨Utf8.encode ": a b\u0085c ;\na x\nbye\n", .endOfInput⟩).run (.fresh 64)
    .endless).written = Utf8.encode " ok\nb c ?\n" := by
  rw [run_eq]
  decide

end Session

end ColonForth
