import WordMachine.Proofs.Exchanges

/-!
# Consoles and buffers

A run on a console and a run on a buffer that is fed with the lines which the console reads go the
same way. The console shows, in one text, the prompts and the texts that the buffer keeps apart, and
it can only differ where it cannot write a text.

## Main definitions

* `promptsOf`, `textsOf`, `shownOf`: the prompts, the texts, and what a console shows of exchanges
* `Console.handed`: the first lines that a console hands over
* `Machine.exchanges`: what a run asks of its terminal, in order

## Main results

* `Machine.execute_of_console`: a run on a console and the run on a buffer with the same lines
-/

namespace WordMachine

/-- Whether a text can be written. -/
def Charset.Takes : Charset → List CodePoint → Prop
  | any, _ => True
  | utf8, text => firstSurrogates? text = none

/-- A text without surrogates can always be written. -/
theorem Charset.takes_of_quiet {text : List CodePoint} (h : firstSurrogates? text = none)
    (c : Charset) : c.Takes text := by
  cases c with
  | any => trivial
  | utf8 => exact h

/-! ## What is exchanged -/

namespace Exchange

/-- The prompt with which a line is asked for. -/
def prompt? : Exchange → Option String
  | line prompt => some prompt
  | text _ => none

/-- The text that is put out. -/
def content? : Exchange → Option (List CodePoint)
  | line _ => none
  | text content => some content

/-- What a console shows: a prompt that is not empty, or a text, each with a line feed. -/
def shown : Exchange → List CodePoint
  | line prompt => if prompt = "" then [] else CodePoint.ofString prompt ++ [CodePoint.ofChar '\n']
  | text content => content ++ [CodePoint.ofChar '\n']

end Exchange

/-- The prompts of some exchanges, one for each line that is taken. -/
def promptsOf (exchanges : List Exchange) : List String :=
  exchanges.filterMap Exchange.prompt?

/-- The texts of some exchanges. -/
def textsOf (exchanges : List Exchange) : List (List CodePoint) :=
  exchanges.filterMap Exchange.content?

/-- All that a console shows of some exchanges. -/
def shownOf (exchanges : List Exchange) : List CodePoint :=
  exchanges.flatMap Exchange.shown

@[simp] theorem promptsOf_append (es es' : List Exchange) :
    promptsOf (es ++ es') = promptsOf es ++ promptsOf es' :=
  List.filterMap_append

@[simp] theorem textsOf_append (es es' : List Exchange) :
    textsOf (es ++ es') = textsOf es ++ textsOf es' :=
  List.filterMap_append

/-- At most one text is put out at a time. -/
theorem mem_textsOf_toList {e : Option Exchange} {text : List CodePoint} :
    text ∈ textsOf e.toList ↔ e = some (.text text) := by
  rcases e with _ | _ | content <;> simp [textsOf, Exchange.content?, eq_comm]

@[simp] theorem shownOf_append (es es' : List Exchange) :
    shownOf (es ++ es') = shownOf es ++ shownOf es' :=
  List.flatMap_append

/-! ## Consoles -/

namespace Console

variable {c c' c'' : Console} {es es' : List Exchange}

/-- The first lines that a console hands over, as many as are asked for: without the blanks at their
ends, and empty behind the last line. -/
def handed (lines : List (List Char)) (count : Nat) : List String :=
  (List.range count).map fun k => String.ofList (Text.trim (lines[k]?.getD []))

@[simp] theorem length_handed (lines : List (List Char)) (count : Nat) :
    (handed lines count).length = count := by
  simp [handed]

theorem handed_add (lines : List (List Char)) (i j : Nat) :
    handed lines (i + j) = handed lines i ++ handed (lines.drop i) j := by
  simp [handed, List.range_add, List.getElem?_drop, Function.comp_def]

/-- A console behind some exchanges. -/
structure Behind (es : List Exchange) (c c' : Console) : Prop where
  /-- It writes the same characters. -/
  encoding : c'.encoding = c.encoding
  /-- What they show is written. -/
  written : c'.written.toList = c.written.toList ++ shownOf es
  /-- The lines that they take are read. -/
  input : Text.lines c'.input = (Text.lines c.input).drop (promptsOf es).length

theorem Behind.refl (c : Console) : Behind [] c c :=
  ⟨rfl, (List.append_nil _).symm, rfl⟩

theorem Behind.trans (h : Behind es c c') (h' : Behind es' c' c'') : Behind (es ++ es') c c'' where
  encoding := h'.encoding.trans h.encoding
  written := by rw [h'.written, h.written, shownOf_append, List.append_assoc]
  input := by rw [h'.input, h.input, List.drop_drop, promptsOf_append, List.length_append]

theorem toList_written_writeLine (text : List CodePoint) (c : Console) :
    (c.writeLine text).written.toList = c.written.toList ++ (text ++ [CodePoint.ofChar '\n']) := by
  simp [writeLine]

/-- A console hands over the first line that is left. -/
theorem behind_request (prompt : String) (c : Console) :
    handed (Text.lines c.input) 1 = [(c.request prompt).1] ∧
      Behind [.line prompt] c (c.request prompt).2 := by
  have hline (d : Console) (hd : d.input = c.input) :
      handed (Text.lines c.input) 1 = [String.ofList (Text.trim (Text.takeLine d.input).1)] := by
    rw [hd, Text.takeLine_fst]
    simp [handed, List.headD_eq_head?_getD, List.head?_eq_getElem?]
  have hrest (d : Console) (hd : d.input = c.input) :
      Text.lines (Text.takeLine d.input).2 = (Text.lines c.input).drop 1 := by
    rw [hd, Text.lines_takeLine, List.drop_one]
  unfold request
  split
  · next hprompt =>
    refine ⟨hline c rfl, rfl, ?_, hrest c rfl⟩
    simp [shownOf, Exchange.shown, hprompt]
  · next hprompt =>
    refine ⟨hline (c.writeLine _) rfl, rfl, ?_, hrest (c.writeLine _) rfl⟩
    simp [shownOf, Exchange.shown, hprompt, toList_written_writeLine]

/-- A console writes a text that can be written. -/
theorem emit_of_takes {text : List CodePoint} (h : c.encoding.Takes text) :
    c.emit text = .ok (c.writeLine text) := by
  unfold emit
  split
  · next hencoding hsurrogates =>
    rw [hencoding] at h
    exact absurd (h.symm.trans hsurrogates) nofun
  · rfl

theorem emit_of_not_takes {text : List CodePoint} (h : ¬c.encoding.Takes text) :
    ∃ cause, c.emit text = .error cause := by
  unfold emit
  split
  · next cause _ _ => exact ⟨cause, rfl⟩
  · next hother =>
    exfalso
    apply h
    cases hencoding : c.encoding with
    | any => trivial
    | utf8 => exact Option.eq_none_iff_forall_ne_some.mpr fun cause hs => hother cause hencoding hs

theorem behind_writeLine (text : List CodePoint) (c : Console) :
    Behind [.text text] c (c.writeLine text) := by
  refine ⟨rfl, ?_, rfl⟩
  simp [shownOf, Exchange.shown, toList_written_writeLine]

/-- A console answers with the line that it hands over. -/
theorem exists_answer {e : Option Exchange}
    (htakes : ∀ text ∈ textsOf e.toList, c.encoding.Takes text) :
    ∃ c', answer c e =
        .ok ((handed (Text.lines c.input) (promptsOf e.toList).length).headD "", c') ∧
      Behind e.toList c c' := by
  rcases e with _ | prompt | text
  · exact ⟨c, rfl, .refl c⟩
  · obtain ⟨hhanded, hbehind⟩ := c.behind_request prompt
    refine ⟨(c.request prompt).2, ?_, hbehind⟩
    change _ = Except.ok ((handed (Text.lines c.input) 1).headD "", _)
    rw [hhanded]
    rfl
  · have hemit : Terminal.emit text c = .ok (c.writeLine text) :=
      emit_of_takes (htakes text (List.mem_singleton_self text))
    exact ⟨c.writeLine text, by rw [answer, hemit]; rfl, c.behind_writeLine text⟩

end Console

/-! ## Buffers -/

namespace Buffer

variable {b b' b'' : Buffer} {es es' : List Exchange}

/-- A fresh buffer with some lines. -/
def holding (lines : List String) : Buffer :=
  { queue := lines }

theorem holding_queue (lines : List String) : (holding lines).queue = lines ++ [] :=
  (List.append_nil lines).symm

/-- A buffer behind some exchanges, for which its queue had the lines. -/
structure Behind (es : List Exchange) (b b' : Buffer) : Prop where
  /-- The first lines of the queue are taken. -/
  queue : ∃ given, given.length = (promptsOf es).length ∧ b.queue = given ++ b'.queue
  /-- The prompts of the lines that are taken are kept. -/
  prompts : b'.prompts.toList = b.prompts.toList ++ promptsOf es
  /-- The texts that are put out are kept. -/
  output : b'.output.toList = b.output.toList ++ textsOf es

theorem Behind.refl (b : Buffer) : Behind [] b b :=
  ⟨⟨[], rfl, rfl⟩, (List.append_nil _).symm, (List.append_nil _).symm⟩

theorem Behind.trans (h : Behind es b b') (h' : Behind es' b' b'') : Behind (es ++ es') b b'' where
  queue := by
    obtain ⟨given, hlength, hqueue⟩ := h.queue
    obtain ⟨given', hlength', hqueue'⟩ := h'.queue
    refine ⟨given ++ given', ?_, by rw [hqueue, hqueue', List.append_assoc]⟩
    rw [List.length_append, hlength, hlength', promptsOf_append, List.length_append]
  prompts := by rw [h'.prompts, h.prompts, promptsOf_append, List.append_assoc]
  output := by rw [h'.output, h.output, textsOf_append, List.append_assoc]

/-- A buffer that has a line if it is asked for one answers with it. -/
theorem exists_answer {e : Option Exchange} {given rest : List String}
    (hqueue : b.queue = given ++ rest) (hgiven : given.length = (promptsOf e.toList).length) :
    ∃ b', answer b e = .ok (given.headD "", b') ∧ Behind e.toList b b' ∧ b'.queue = rest := by
  rcases e with _ | prompt | text
  · obtain rfl : given = [] := List.eq_nil_of_length_eq_zero hgiven
    exact ⟨b, rfl, .refl b, hqueue⟩
  · obtain ⟨line, rfl⟩ : ∃ line, given = [line] := List.length_eq_one_iff.mp hgiven
    have hrequest : Terminal.request prompt b =
        some (line, { b with queue := rest, prompts := b.prompts.push prompt }) := by
      change b.request prompt = _
      rw [request, hqueue, List.singleton_append]
    refine ⟨{ b with queue := rest, prompts := b.prompts.push prompt }, ?_,
      ⟨⟨[line], rfl, hqueue⟩, ?_, ?_⟩, rfl⟩
    · rw [answer, hrequest]
      rfl
    · simp [promptsOf, Exchange.prompt?]
    · simp [textsOf, Exchange.content?]
  · obtain rfl : given = [] := List.eq_nil_of_length_eq_zero hgiven
    refine ⟨b.emit text, rfl, ⟨⟨[], rfl, rfl⟩, ?_, ?_⟩, hqueue⟩
    · simp [promptsOf, Exchange.prompt?, emit]
    · simp [textsOf, Exchange.content?, emit]

end Buffer

/-! ## Runs -/

namespace Machine

variable {limit : Option Int} {fuel executed : Nat} {result : Except Fault Nat}

/-- What a run that has executed a number of instructions asks of its terminal, in order. -/
def talk {σ : Type} [Terminal σ] (limit : Option Int) (fuel executed : Nat) (m : Machine σ) :
    List Exchange :=
  (course limit fuel executed m).filterMap exchange?

/-- What a run from an address asks of its terminal, in order. -/
def exchanges {σ : Type} [Terminal σ] (m : Machine σ) (begin : Int) (limit : Option Int)
    (fuel : Nat) : List Exchange :=
  talk limit fuel 0 (m.startAt begin)

theorem talk_of_course {σ : Type} [Terminal σ] {m : Machine σ} {ms : List (Machine σ)}
    (h : course limit fuel executed m = m :: ms) :
    talk limit fuel executed m = m.exchange?.toList ++ ms.filterMap exchange? := by
  rw [talk, h, List.filterMap_cons]
  cases m.exchange? <;> rfl

/-- What a run without a limit asks for does not depend on the instructions before it. -/
theorem course_unlimited {σ : Type} [Terminal σ] (i j : Nat) (m : Machine σ) :
    course none fuel i m = course none fuel j m := by
  induction fuel generalizing i j m with
  | zero => rfl
  | succ fuel ih =>
    have hgoes (k : Nat) : mustStop none k m = false := rfl
    rw [course, course, hgoes, hgoes]
    rcases m.step with ⟨_ | _ | words, n⟩
    · rfl
    · rfl
    · dsimp only
      rw [ih (i + 1) (j + 1) n]

theorem talk_of_went {σ : Type} [Terminal σ] {m n : Machine σ} {words : Nat}
    (h : m.step = (.ok (.went words), n)) :
    talk none (fuel + 1) 0 m = m.exchange?.toList ++ talk none fuel 0 n := by
  refine talk_of_course ?_
  have hgoes : mustStop none 0 m = false := rfl
  rw [course, hgoes, h, course_unlimited 0 1 n]
  rfl

variable {m m' : Machine Console} {a : Machine Buffer} {rest : List String}

/-- Two runs have gone the same way up to their ends, with some exchanges. -/
structure Interchanged (es : List Exchange) (m m' : Machine Console) (a a' : Machine Buffer)
    (rest : List String) : Prop where
  /-- The machines are alike. -/
  alike : Alike m' a'
  /-- The console is behind the exchanges. -/
  console : Console.Behind es m.terminal m'.terminal
  /-- The buffer is behind the exchanges. -/
  buffer : Buffer.Behind es a.terminal a'.terminal
  /-- The buffer has the lines left that were not asked for. -/
  queue : a'.terminal.queue = rest

/-- One step on a console, and on a buffer that has the line which the console would hand over. -/
theorem interchanged_step (halike : Alike m a)
    (htakes : ∀ text ∈ textsOf m.exchange?.toList, m.terminal.encoding.Takes text)
    (hqueue : a.terminal.queue = Console.handed (Text.lines m.terminal.input)
      (promptsOf m.exchange?.toList).length ++ rest) :
    a.step.1 = m.step.1 ∧ (∀ fault, m.step.1 = .error fault → ¬fault.IsRefusal) ∧
      Interchanged m.exchange?.toList m m.step.2 a a.step.2 rest := by
  obtain ⟨c', hc, hconsole⟩ := Console.exists_answer htakes
  obtain ⟨b', hb, hbuffer, hrest⟩ := Buffer.exists_answer hqueue (Console.length_handed _ _)
  obtain ⟨hresult, hfault, halike, rfl, rfl⟩ := halike.step hc hb
  exact ⟨hresult, hfault, halike, hconsole, hbuffer, hrest⟩

/-- A run on a console, and the run on a buffer that has the lines which the console would hand
over. -/
theorem interchanged_run (h : run limit fuel executed m = some (result, m'))
    (halike : Alike m a)
    (htakes : ∀ text ∈ textsOf (talk limit fuel executed m), m.terminal.encoding.Takes text)
    (hqueue : a.terminal.queue = Console.handed (Text.lines m.terminal.input)
      (promptsOf (talk limit fuel executed m)).length ++ rest) :
    (∀ fault, result = .error fault → ¬fault.IsRefusal) ∧
      ∃ a', run limit fuel executed a = some (result, a') ∧
        Interchanged (talk limit fuel executed m) m m' a a' rest := by
  -- Induction on the fuel: the two runs take each step in the same way.
  induction fuel generalizing executed m a with
  | zero => cases h
  | succ fuel ih =>
    have hstop : mustStop limit executed a = mustStop limit executed m := by
      rw [mustStop, mustStop, halike.core]
    rcases run_cases h with ⟨hlimit, hcourse, rfl, rfl⟩ | ⟨hgoes, hcourse, hlast, rfl⟩ |
      ⟨words, n, hgoes, hstep, hcourse, hrun⟩
    · have htalk : talk limit (fuel + 1) executed m' = [] := by rw [talk, hcourse]; rfl
      rw [htalk] at hqueue ⊢
      refine ⟨?_, a, ?_, halike, .refl _, .refl _, hqueue⟩
      · rintro _ ⟨⟩
        exact Fault.not_isRefusal_ofLimit _ _
      · rw [run, hstop, if_pos hlimit, halike.core]
    · have htalk := talk_of_course hcourse
      rw [List.filterMap_nil, List.append_nil] at htalk
      rw [htalk] at htakes hqueue ⊢
      obtain ⟨hresult, hfault, hstep⟩ := interchanged_step halike htakes hqueue
      obtain ⟨-, hlast⟩ := verdict?_eq_some_iff.mp hlast
      refine ⟨?_, a.step.2, ?_, hstep⟩
      · rintro fault rfl
        rcases hlast with ⟨-, hf⟩ | ⟨_, hf, ⟨⟩⟩
        · cases hf
        · exact hfault fault hf
      · refine run_of_conclusion? ?_ fuel
        rw [conclusion?, hstop, hgoes, if_neg Bool.false_ne_true]
        exact verdict?_eq_some_iff.mpr ⟨rfl, by rwa [hresult]⟩
    · have htalk : talk limit (fuel + 1) executed m =
          m.exchange?.toList ++ talk limit fuel (executed + 1) n := talk_of_course hcourse
      rw [htalk] at htakes hqueue ⊢
      rw [promptsOf_append, List.length_append, Console.handed_add, List.append_assoc] at hqueue
      rw [textsOf_append] at htakes
      -- the first step leaves the lines for the others
      obtain ⟨hresult, -, hfirst⟩ :=
        interchanged_step halike (fun t ht => htakes t (List.mem_append_left _ ht)) hqueue
      rw [hstep] at hresult hfirst
      have hstep' : a.step = (.ok (.went words), a.step.2) := Prod.ext hresult rfl
      obtain ⟨halike', hconsole, hbuffer, hqueue'⟩ := hfirst
      have htakes' : ∀ text ∈ textsOf (talk limit fuel (executed + 1) n),
          n.terminal.encoding.Takes text := by
        intro text htext
        rw [hconsole.encoding]
        exact htakes text (List.mem_append_right _ htext)
      rw [← hconsole.input] at hqueue'
      obtain ⟨hfault, a', hrun', hrest⟩ := ih hrun halike' htakes' hqueue'
      refine ⟨hfault, a', ?_, hrest.alike, hconsole.trans hrest.console,
        hbuffer.trans hrest.buffer, hrest.queue⟩
      rw [run, hstop, hgoes, if_neg Bool.false_ne_true, hstep']
      exact hrun'

/-- A step that puts out a text which cannot be written fails for that. -/
theorem step_of_not_takes {text : List CodePoint} (htext : text ∈ textsOf m.exchange?.toList)
    (h : ¬m.terminal.encoding.Takes text) : ∃ cause, m.step.1 = .error (.unencodable cause) := by
  obtain ⟨cause, hemit⟩ := Console.emit_of_not_takes h
  have hanswer : answer m.terminal m.exchange? = .error (.unencodable cause) := by
    have hemit : Terminal.emit text m.terminal = .error cause := hemit
    rw [mem_textsOf_toList.mp htext, answer, hemit]
  exact ⟨cause, by rw [step_of_refusal hanswer]⟩

/-- A run that puts out a text which cannot be written fails for that. -/
theorem run_of_not_takes (h : run limit fuel executed m = some (result, m'))
    {text : List CodePoint} (htext : text ∈ textsOf (talk limit fuel executed m))
    (hrefused : ¬m.terminal.encoding.Takes text) :
    ∃ cause, result = .error (.unencodable cause) := by
  induction fuel generalizing executed m with
  | zero => cases h
  | succ fuel ih =>
    rcases run_cases h with ⟨-, hcourse, -, -⟩ | ⟨-, hcourse, hlast, -⟩ |
      ⟨words, n, -, hstep, hcourse, hrun⟩
    · rw [talk, hcourse] at htext
      cases htext
    · rw [talk_of_course hcourse, List.filterMap_nil, List.append_nil] at htext
      obtain ⟨cause, hcause⟩ := step_of_not_takes htext hrefused
      rcases (verdict?_eq_some_iff.mp hlast).2 with ⟨hended, -⟩ | ⟨fault, hfault, rfl⟩
      · rw [hcause] at hended
        cases hended
      · exact ⟨cause, congrArg _ (Except.error.inj (hfault.symm.trans hcause))⟩
    · rw [talk_of_course hcourse, textsOf_append] at htext
      -- the first step goes on, so that its texts can be written
      have htakes : ∀ t ∈ textsOf m.exchange?.toList, m.terminal.encoding.Takes t := by
        intro t ht
        by_contra hnot
        obtain ⟨cause, hcause⟩ := step_of_not_takes ht hnot
        rw [hstep] at hcause
        cases hcause
      have hqueue := Buffer.holding_queue (Console.handed (Text.lines m.terminal.input)
        (promptsOf m.exchange?.toList).length)
      obtain ⟨-, -, hfirst⟩ := interchanged_step (m.alike_onto _) htakes hqueue
      have hencoding := hfirst.console.encoding
      rw [hstep] at hencoding
      rcases List.mem_append.mp htext with htext | htext
      · exact absurd (htakes text htext) hrefused
      · refine ih hrun htext ?_
        rwa [hencoding]

/-- A run on a console goes, with some exchanges, as the run from the same state on a fresh buffer
with the lines which the console hands over. -/
structure OnBuffer (m : Machine Console) (begin : Int) (limit : Option Int) (fuel : Nat)
    (es : List Exchange) (result : Except Fault Nat) (m' : Machine Console) : Prop where
  /-- The console has read the lines that were taken, and no more. -/
  input : Text.lines m'.terminal.input = (Text.lines m.terminal.input).drop (promptsOf es).length
  /-- The console has written the prompts and the texts, one after the other. -/
  written : m'.terminal.written.toList = m.terminal.written.toList ++ shownOf es
  /-- The run on the buffer has the same outcome, leaves the same memory and the same registers,
  takes all lines, and keeps the same prompts and texts. -/
  buffer : ∃ a : Machine Buffer,
    (m.onto (Buffer.holding (Console.handed (Text.lines m.terminal.input)
      (promptsOf es).length))).execute begin limit fuel = some (result, a) ∧
    a.toCore = m'.toCore ∧ a.terminal.queue = [] ∧ a.terminal.prompts.toList = promptsOf es ∧
    a.terminal.output.toList = textsOf es

/-- **Consoles and buffers.** A run on a console never waits for a line. It goes as the run on a
buffer with the lines that the console hands over, unless it puts out a text that the console cannot
write; then it fails for that. -/
theorem execute_of_console {begin : Int} (h : m.execute begin limit fuel = some (result, m')) :
    (∀ prompt, result ≠ .error (.inputPending prompt)) ∧
      ((∃ cause, result = .error (.unencodable cause)) ↔
        ∃ text ∈ textsOf (m.exchanges begin limit fuel), ¬m.terminal.encoding.Takes text) ∧
      ((∀ text ∈ textsOf (m.exchanges begin limit fuel), m.terminal.encoding.Takes text) →
        OnBuffer m begin limit fuel (m.exchanges begin limit fuel) result m') := by
  have hall (htakes : ∀ text ∈ textsOf (m.exchanges begin limit fuel),
      m.terminal.encoding.Takes text) :=
    interchanged_run h ((m.alike_onto _).startAt begin) htakes (Buffer.holding_queue (Console.handed
      (Text.lines m.terminal.input) (promptsOf (m.exchanges begin limit fuel)).length))
  refine ⟨?_, ⟨?_, ?_⟩, ?_⟩
  · rintro prompt rfl
    by_cases htakes : ∀ text ∈ textsOf (m.exchanges begin limit fuel),
        m.terminal.encoding.Takes text
    · exact (hall htakes).1 _ rfl (.inputPending prompt)
    · push Not at htakes
      obtain ⟨text, htext, hrefused⟩ := htakes
      obtain ⟨cause, hcause⟩ := run_of_not_takes h htext hrefused
      cases hcause
  · rintro ⟨cause, rfl⟩
    by_contra hnone
    push Not at hnone
    exact (hall hnone).1 _ rfl (.unencodable cause)
  · rintro ⟨text, htext, hrefused⟩
    exact run_of_not_takes h htext hrefused
  · intro htakes
    obtain ⟨-, a, hrun, halike, hconsole, hbuffer, hqueue⟩ := hall htakes
    exact ⟨hconsole.input, hconsole.written, a, hrun, halike.core, hqueue, hbuffer.prompts,
      hbuffer.output⟩

/-- A program that takes a line, puts it out and takes another one, on a console with one line. -/
def echo : Machine Console where
  memory := ((∅ : Memory).load [0xF001, 20, 19, 0xF002, 20, 19, 0xF001, 30, 29, 0x8100] 0).2
  terminal := { input := " ab \n".toList, encoding := .utf8 }

/-- The second line is empty, behind the end of the input. -/
theorem execute_of_console_echo :
    ∃ m', echo.execute 0 none 4 = some (.ok 3, m') ∧
      Console.handed (Text.lines echo.terminal.input) 2 = ["ab", ""] ∧
      OnBuffer echo 0 none 4
        [.line inputPrompt, .text (CodePoint.ofString "ab"), .line inputPrompt] (.ok 3) m' := by
  have hr : (echo.execute 0 none 4).map (fun o => o.1.toOption) = some (some 3) := by
    decide +kernel
  have hes : echo.exchanges 0 none 4 =
      [.line inputPrompt, .text (CodePoint.ofString "ab"), .line inputPrompt] := by
    decide +kernel
  rcases h : echo.execute 0 none 4 with _ | ⟨_ | k, m'⟩ <;> rw [h] at hr <;> cases hr
  obtain ⟨-, -, hbuffer⟩ := execute_of_console h
  rw [hes] at hbuffer
  refine ⟨m', rfl, by decide +kernel, hbuffer ?_⟩
  intro text htext
  obtain rfl : text = CodePoint.ofString "ab" := List.mem_singleton.mp htext
  exact firstSurrogates?_ofString "ab"

end Machine

end WordMachine
