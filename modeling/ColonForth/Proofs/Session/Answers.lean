import ColonForth.Proofs.Session.Continuation

/-! The answers of a session, line by line, and the echo in front of them. -/
namespace ColonForth
open Text
open ColonForth.Action

namespace Session

/-- A line as it was read, and the bytes that report it. -/
structure Answer where
  raw : List UInt8
  report : List UInt8

/-- Leads the cursor up to the typed line and to the right over as many columns as the line has
characters, its newline among them. -/
def Answer.echo (answer : Answer) : List UInt8 :=
  Utf8.encode ("\x1b[1A\x1b[" ++ (Utf8.decodeLossy answer.raw).toList.length.repr ++ "C")

def Answer.shown (echo : Bool) (answer : Answer) : List UInt8 :=
  (if echo then answer.echo else []) ++ answer.report

/-- Interpreted in turn, the lines have these answers. They lead the machine to `last`, up to the
end of the input or to the first line that says `bye`. -/
inductive Answers : Machine → List (List UInt8) → List Answer → Machine → SessionEnd → Prop
  | endOfInput (m : Machine) : Answers m [] [] m .endOfInput
  | bye {m here : Machine} {raw report : List UInt8} (behind : List (List UInt8))
      (h : (interpretLine (Utf8.decodeLossy raw)).run m .endless =
        ⟨here, .endless, report, .ok .bye⟩) :
      Answers m (raw :: behind) [⟨raw, report⟩] here .bye
  | proceed {m here last : Machine} {raw report : List UInt8} {lines : List (List UInt8)}
      {answers : List Answer} {ending : SessionEnd}
      (h : (interpretLine (Utf8.decodeLossy raw)).run m .endless =
        ⟨here, .endless, report, .ok .proceed⟩)
      (hbehind : Answers here lines answers last ending) :
      Answers m (raw :: lines) (⟨raw, report⟩ :: answers) last ending

variable {m here last : Machine} {lines : List (List UInt8)} {answers : List Answer}
  {ending : SessionEnd}

theorem exists_answers (m : Machine) (lines : List (List UInt8)) :
    ∃ answers last ending, Answers m lines answers last ending := by
  induction lines generalizing m with
  | nil => exact ⟨[], m, .endOfInput, .endOfInput m⟩
  | cons raw lines ih =>
    obtain ⟨here, text, result, hrun, -, flow, rfl⟩ :=
      tells_interpretLine_ok (Utf8.decodeLossy raw) m trivial
    cases flow with
    | bye => exact ⟨_, here, .bye, .bye lines hrun⟩
    | proceed =>
      obtain ⟨answers, last, ending, hbehind⟩ := ih here
      exact ⟨_, last, ending, .proceed hrun hbehind⟩

/-- The lines that have answers are the first ones, and all of them unless one says `bye`. -/
theorem Answers.exists_behind (h : Answers m lines answers last ending) :
    ∃ behind, lines = answers.map Answer.raw ++ behind ∧ (ending = .endOfInput → behind = []) := by
  induction h with
  | endOfInput m => exact ⟨[], rfl, fun _ => rfl⟩
  | bye behind h =>
    refine ⟨behind, rfl, ?_⟩
    rintro ⟨⟩
  | proceed h hbehind ih =>
    obtain ⟨behind, rfl, hending⟩ := ih
    exact ⟨behind, rfl, hending⟩

/-- The step: a line that is taken is shown its answer. -/
theorem run_takeLine {raw report : List UInt8} {flow : Flow} (echo : Bool)
    (h : (interpretLine (Utf8.decodeLossy raw)).run m .endless =
      ⟨here, .endless, report, .ok flow⟩) :
    (takeLine echo raw).run m .endless =
      ⟨here, .endless, Answer.shown echo ⟨raw, report⟩, .ok flow⟩ := by
  have hecho : (echoLine echo (Utf8.decodeLossy raw)).run m .endless =
      ⟨m, .endless, if echo then Answer.echo ⟨raw, report⟩ else [], .ok ()⟩ := by
    cases echo <;> rfl
  have hflush : (flush >>= fun _ => pure flow).run here .endless =
      ⟨here, .endless, [], .ok flow⟩ := rfl
  rw [takeLine, run_bind_of_ok (by rw [hecho]), hecho]
  simp only
  rw [run_bind_of_ok (by rw [h]), h]
  simp only [hflush, List.append_nil, Answer.shown]

/-- Lines that are taken are shown their answers. -/
theorem Answers.run_lines (h : Answers m lines answers last ending) (echo : Bool) :
    (untilBye (takeLine echo) lines).run m .endless =
      ⟨last, .endless, answers.flatMap (Answer.shown echo), .ok ending.flow⟩ := by
  induction h with
  | endOfInput m => rfl
  | @bye m here raw report behind h =>
    have hrun := run_takeLine echo h
    rw [run_untilBye_cons_of_stop (by simp [hrun]), hrun]
    simp [SessionEnd.flow]
  | proceed h hbehind ih =>
    rw [run_untilBye_cons_of_proceed (run_takeLine echo h), ih, List.flatMap_cons]

theorem Answers.run {input : Input} (h : Answers m input.lines answers last ending)
    (hinput : input.ending = .endOfInput) (echo : Bool) :
    (run echo input).run m .endless =
      ⟨last, .endless, answers.flatMap (Answer.shown echo), .ok ending⟩ := by
  have hlines := h.run_lines echo
  have hfinish : (finish .endOfInput ending.flow).run last .endless =
      ⟨last, .endless, [], .ok ending⟩ := by
    cases ending <;> rfl
  rw [run_eq, run_bind_of_ok (by rw [hlines]), hlines, hinput]
  simp only [hfinish, List.append_nil]

/-- A session with echo ends as the session without echo does and leaves the same machine. It writes
the same answers, to the same lines, and in front of each of them the echo of the line. Lines behind
the one that says `bye` are not echoed. -/
theorem run_echo (m : Machine) (bytes : List UInt8) :
    let lines := Input.lines ⟨bytes, .endOfInput⟩
    let silent := (run false ⟨bytes, .endOfInput⟩).run m .endless
    let echoed := (run true ⟨bytes, .endOfInput⟩).run m .endless
    echoed.result = silent.result ∧ echoed.machine = silent.machine ∧ AreLinesOf lines bytes ∧
      ∃ answers ending, Answers m lines answers silent.machine ending ∧
        silent.result = .ok ending ∧
        (∃ behind, lines = answers.map Answer.raw ++ behind ∧
          (ending = .endOfInput → behind = [])) ∧
        silent.written = answers.flatMap Answer.report ∧
        echoed.written = answers.flatMap fun answer => answer.echo ++ answer.report := by
  intro lines silent echoed
  obtain ⟨answers, last, ending, hanswers⟩ : ∃ answers last ending,
      Answers m lines answers last ending := exists_answers m lines
  have hsilent : silent = _ := hanswers.run rfl false
  have hechoed : echoed = _ := hanswers.run rfl true
  rw [hsilent, hechoed]
  exact ⟨rfl, rfl, areLinesOf_lines bytes, answers, ending, hanswers, rfl,
    hanswers.exists_behind, rfl, rfl⟩

/-- The two bytes of a sequence that breaks off are one character. -/
example : ((run true ⟨[0xE2, 0x82, 0x20, 0x31, 0x0A], .endOfInput⟩).run (.fresh 64)
    .endless).written = Utf8.encode "\x1b[1A\x1b[4C\uFFFD ?\n" := by
  rw [run_eq]
  decide

end Session

end ColonForth
