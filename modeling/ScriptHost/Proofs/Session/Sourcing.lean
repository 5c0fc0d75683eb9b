import ScriptHost.Proofs.Session.Course
import ScriptHost.Proofs.Stream.Sources

/-!
# How a session comes by its program

A session is given its program as a text, or reads it from a stream or a pipe, attempt by attempt; between two attempts the
others use the host and request termination, and more of the program arrives.  Whatever bytes an attempt brings, the session
compiles what all of them are together.

* `ProgramSource.attempt?`, `Job.attempted` — an attempt to read the program, and the session after it;
* `step_text`, `step_terminated`, `step_more`, `step_ended`, `step_failed` — a step of a session that reads its program;
* `Sourcing` — attempts, and what others do meanwhile;
* `Job.Sources`, **`Sourcing.sources`** — what a session makes of the bytes that have arrived;
* `compile_source`, **`steps_stream`** — a session that reads a stream by itself;
* **`program_of_bytes`** — the program is that of the bytes together, and the session goes on as with the text.
-/

namespace ScriptHost

/-- The next attempt to read a program: its result, what is left, and whether termination was requested meanwhile.  A text is
there and not read. -/
def ProgramSource.attempt? : ProgramSource → Option (Except IoError Bytes × ProgramSource × Bool)
  | .text _ => none
  | .stream r => some ((r.read sourceChunk).result, .stream (r.read sourceChunk).rest, (r.read sourceChunk).requested)
  | .pipe p => some ((p.read sourceChunk).1, .pipe (p.read sourceChunk).2, false)

namespace Job

/-- A session after an attempt to read its program. -/
def attempted (j : Job) (source : ProgramSource) (requested : Bool) : Job :=
  ({ j with source }.onAccess fun a => ((), if requested then (a.onHost fun h => ((), h.terminate a.id)).2 else a)).2

theorem attempted_quiet (j : Job) (source : ProgramSource) : j.attempted source false = { j with source } := rfl

/-! ### One step -/

section Steps

variable {e : Engine} {j : Job} {read : Bytes} {result : Except IoError Bytes} {source : ProgramSource} {requested : Bool}

theorem step_collect (hphase : j.phase = .reading read) : (j.step e).2 = (j.collect e.config read).2 := by
  rw [step, hphase]

theorem step_text {t : String} (hphase : j.phase = .reading read) (hsource : j.source = .text t) :
    (j.step e).2 = j.compile e.config t := by
  rw [step_collect hphase, collect, hsource]

/-- If termination was requested, nothing is read. -/
theorem step_terminated (hphase : j.phase = .reading read) (hattempt : j.source.attempt?.isSome = true)
    (hterminated : j.access.isTerminated = true) : (j.step e).2 = (j.notice parseTerminated).conclude .interrupted := by
  rw [step_collect hphase, collect]
  cases hsource : j.source with
  | text t =>
    rw [hsource] at hattempt
    cases hattempt
  | stream x | pipe x => simp only [hterminated, if_true]

/-- What a session does with the result of an attempt. -/
theorem collect_attempted (hattempt : j.source.attempt? = some (result, source, requested))
    (hterminated : j.access.isTerminated = false) (read : Bytes) :
    (∀ read' wait, ScriptHost.collect read result = .more read' wait →
        (j.collect e.config read).2 = { j.attempted source requested with phase := .reading read' }) ∧
      (∀ text, ScriptHost.collect read result = .finished text →
        (j.collect e.config read).2 = (j.attempted source requested).compile e.config text) ∧
      ∀ f, ScriptHost.collect read result = .failed (.io f) →
        (j.collect e.config read).2 = (j.attempted source requested).fail e.config (.setup (.io f)) := by
  rw [collect]
  cases hsource : j.source with
  | text t =>
    rw [hsource] at hattempt
    cases hattempt
  | stream x | pipe x =>
    rw [hsource] at hattempt
    cases hattempt
    simp only [hterminated, Bool.false_eq_true, if_false]
    refine ⟨fun read' wait h => ?_, fun text h => ?_, fun f h => ?_⟩
    all_goals
      rw [h]
      rfl

variable (hphase : j.phase = .reading read) (hattempt : j.source.attempt? = some (result, source, requested))
  (hterminated : j.access.isTerminated = false)

include hphase hattempt hterminated

/-- **An attempt after which reading goes on** adds its bytes to those that were read. -/
theorem step_more (hmore : Continues result) : ∃ read', read'.data.toList = read.data.toList ++ bytesOf result ∧
    (j.step e).2 = { j.attempted source requested with phase := .reading read' } := by
  obtain ⟨read', wait, hcollect, hread⟩ := collect_more hmore read
  exact ⟨read', hread, (step_collect hphase).trans ((collect_attempted hattempt hterminated read).1 read' wait hcollect)⟩

/-- At the end of the stream the session compiles what was read. -/
theorem step_ended (hended : result = .ok ByteArray.empty) :
    (j.step e).2 = (j.attempted source requested).compile e.config (Utf8.decodeLossy read) := by
  subst hended
  exact (step_collect hphase).trans ((collect_attempted hattempt hterminated read).2.1 _ (collect_ended read))

theorem step_failed {f : IoError} (hfailed : result = .error f) (hhard : ¬ Continues (.error f)) :
    (j.step e).2 = (j.attempted source requested).fail e.config (.setup (.io f)) := by
  subst hfailed
  exact (step_collect hphase).trans ((collect_attempted hattempt hterminated read).2.2 f (collect_failed hhard read))

end Steps

/-! ### The same session with another source -/

/-- Compiling a program does not look at where it comes from, nor at what was read. -/
theorem compile_source (j : Job) (c : Config) (text : String) (source : ProgramSource) (phase : Phase) :
    { j with source, phase }.compile c text = { j.compile c text with source } := by
  rw [compile, compile]
  cases Script.compile (Bytes.ofString j.name) (Bytes.ofString text) with
  | error message => rfl
  | ok p => rfl

/-- A session that has read the bytes of a text goes on as one that was given the text. -/
theorem compile_eq_step_text {j : Job} {read : Bytes} (hphase : j.phase = .reading read) (e : Engine) (t : String) :
    j.compile e.config t = { ({ j with source := .text t }.step e).2 with source := j.source } := by
  have hsame : j.compile e.config t = { j.compile e.config t with source := j.source } :=
    j.compile_source e.config t j.source j.phase
  have hstep : ({ j with source := .text t }.step e).2 = { j.compile e.config t with source := .text t } :=
    (step_text (j := { j with source := .text t }) hphase rfl).trans (j.compile_source e.config t (.text t) j.phase)
  rw [hstep, ← hsame]

end Job

/-! ### All attempts -/

/-- A session that reads its program has made attempts with these results, of which none was the last; between two of them
anything has happened to the host and the time, and to the source. -/
inductive Sourcing (e : Engine) (start : Job) : List (Except IoError Bytes) → Job → Prop
  | start : Sourcing e start [] start
  | attempt {got : List (Except IoError Bytes)} {j : Job} (h : Sourcing e start got j) {result : Except IoError Bytes}
      {source : ProgramSource} {requested : Bool} (hattempt : j.source.attempt? = some (result, source, requested))
      (hterminated : j.access.isTerminated = false) (hmore : Continues result) :
      Sourcing e start (got ++ [result]) (j.step e).2
  | meanwhile {got : List (Except IoError Bytes)} {j : Job} (h : Sourcing e start got j) (host : Host) (clock : Nat)
      (source : ProgramSource) : Sourcing e start got (j.meanwhile host clock source)

/-- What a session that reads its program does next, when attempts have brought this. -/
structure Job.Sources (j : Job) (e : Engine) (got : List (Except IoError Bytes)) : Prop where
  read : ∃ read, j.phase = .reading read ∧ read.data.toList = arrived got
  text : ∀ t, j.source = .text t → (j.step e).2 = j.compile e.config t
  /-- Once termination is requested, no more attempt is made. -/
  terminated : j.source.attempt?.isSome = true → j.access.isTerminated = true →
    (j.step e).2 = (j.notice Job.parseTerminated).conclude .interrupted ∧ (j.step e).2.source = j.source
  /-- At the end of the stream it compiles all the bytes that have arrived, as a text. -/
  ended : ∀ source requested, j.source.attempt? = some (.ok ByteArray.empty, source, requested) →
    j.access.isTerminated = false →
    (j.step e).2 = (j.attempted source requested).compile e.config (Utf8.decodeLossy (arrived got).toByteArray)
  failed : ∀ f source requested, j.source.attempt? = some (.error f, source, requested) → ¬ Continues (.error f) →
    j.access.isTerminated = false → (j.step e).2 = (j.attempted source requested).fail e.config (.setup (.io f))
  /-- If these are the bytes of a text, it does what a session does in its place that was given the text. -/
  sameAsText : ∀ t source requested, arrived got = (Bytes.ofString t).data.toList →
    j.source.attempt? = some (.ok ByteArray.empty, source, requested) → j.access.isTerminated = false →
    (j.step e).2 = { ({ j.attempted source requested with source := .text t }.step e).2 with source }

namespace Sourcing

variable {e : Engine} {start j : Job} {got : List (Except IoError Bytes)}

/-- What was read is what has arrived, by induction on the attempts. -/
theorem read_eq (hstart : start.phase = .reading ByteArray.empty) (h : Sourcing e start got j) :
    ∃ read, j.phase = .reading read ∧ read.data.toList = arrived got := by
  induction h with
  | start => exact ⟨ByteArray.empty, hstart, rfl⟩
  | attempt _ hattempt hterminated hmore ih =>
    obtain ⟨read, hphase, hread⟩ := ih
    obtain ⟨read', hread', hstep⟩ := Job.step_more hphase hattempt hterminated hmore
    exact ⟨read', by rw [hstep], by rw [hread', hread, arrived_concat]⟩
  | meanwhile _ host clock source ih => exact ih

theorem sources (hstart : start.phase = .reading ByteArray.empty) (h : Sourcing e start got j) : j.Sources e got := by
  obtain ⟨read, hphase, hread⟩ := h.read_eq hstart
  have hbytes : read = (arrived got).toByteArray := Bytes.eq_toByteArray hread
  exact
    { read := ⟨read, hphase, hread⟩
      text := fun _ => Job.step_text hphase
      terminated := fun hattempt hterminated => by
        rw [Job.step_terminated hphase hattempt hterminated]
        exact ⟨rfl, rfl⟩
      ended := fun _ _ hattempt hterminated => by
        rw [Job.step_ended hphase hattempt hterminated rfl, hbytes]
      failed := fun _ _ _ hattempt hhard hterminated => Job.step_failed hphase hattempt hterminated rfl hhard
      sameAsText := fun t source requested ht hattempt hterminated => by
        have htext : Utf8.decodeLossy read = t := by
          rw [hbytes, ht, Utf8.data_toUTF8, Utf8.decodeLossy_encoded, String.ofList_toList]
        rw [Job.step_ended hphase hattempt hterminated rfl, htext]
        exact Job.compile_eq_step_text (j := j.attempted source requested) hphase e t }

end Sourcing

/-! ### A stream by itself -/

/-- A session takes some steps. -/
def Job.steps (e : Engine) : Nat → Job → Job
  | 0, j => j
  | n + 1, j => steps e n (j.step e).2

/-- A session that reads a stream by itself comes to compile all its bytes. -/
theorem Job.steps_stream (e : Engine) (t : String) (r : Reader) (hquiet : Piece.request ∉ r) (hwell : r.failure? = none) :
    ∀ {j : Job} {read : Bytes}, j.phase = .reading read → j.source = .stream r → j.access.isTerminated = false →
      read.data.toList ++ r.bytes = (Bytes.ofString t).data.toList →
      ∃ n, j.steps e n = { j.compile e.config t with source := .stream [] } := by
  generalize hsize : r.attempts = size
  induction size using Nat.strongRecOn generalizing r with
  | ind size ih =>
    intro j read hphase hsource hterminated hbytes
    obtain ⟨hrequested, hrest⟩ := Reader.read_quiet hquiet sourceChunk
    obtain ⟨hpasses, hmeets, hends⟩ := r.read_passes sourceChunk
    have hyields := r.read_yields (show 0 < sourceChunk by decide)
    have hattempt : j.source.attempt? = some ((r.read sourceChunk).result, .stream (r.read sourceChunk).rest, false) := by
      rw [hsource, ProgramSource.attempt?, hrequested]
    rcases continues_or (r.read sourceChunk).result with hmore | hended | ⟨f, hfailed, hhard⟩
    · obtain ⟨read', hread', hstep⟩ := step_more (e := e) hphase hattempt hterminated hmore
      have hless := Reader.attempts_read_lt hmore
      -- only the source and the phase of the session have changed, and compiling looks at neither
      obtain ⟨n, hn⟩ := ih _ (hsize ▸ hless) (r.read sourceChunk).rest hrest ((hpasses hmore).trans hwell) rfl
        (j := { j with source := .stream (r.read sourceChunk).rest, phase := .reading read' }) rfl rfl hterminated
        (by rw [hread', List.append_assoc, hyields.bytesOf_append, hbytes])
      refine ⟨n + 1, ?_⟩
      rw [steps, hstep, attempted_quiet, hn, compile_source]
    · have hnone : r.bytes = [] := Reader.bytes_eq_nil (by decide) hended
      have hread : read = (Utf8.encoded t.toList).toByteArray := by
        rw [hnone, List.append_nil, Utf8.data_toUTF8] at hbytes
        exact Bytes.eq_toByteArray hbytes
      refine ⟨1, ?_⟩
      rw [steps, steps, step_ended hphase hattempt hterminated hended, hread, Utf8.decodeLossy_encoded, String.ofList_toList,
        attempted_quiet, (hends hended (by decide)).2]
      exact j.compile_source e.config t (.stream []) j.phase
    · have hmet := hmeets f hfailed (hfailed ▸ hhard)
      rw [hwell] at hmet
      cases hmet

/-- **The program is that of all its bytes.**  However the bytes of a program are cut, whatever lies between them and whatever
happens meanwhile, a session reads them to the end of the stream or to the first failure, or ends because termination was
requested, without another attempt.  It compiles all the bytes that have arrived, as a text, and if these are the bytes of a
text it goes on as a session that was given the text. -/
theorem program_of_bytes {e : Engine} {start j : Job} {got : List (Except IoError Bytes)}
    (hstart : start.phase = .reading ByteArray.empty) (h : Sourcing e start got j) :
    j.Sources e got ∧ (∀ (r : Reader) (requested : Bool), r.ReadsIn requested) ∧
      ∀ (r : Reader) (t : String), start.source = .stream r → start.access.isTerminated = false → Piece.request ∉ r →
        r.failure? = none → r.bytes = (Bytes.ofString t).data.toList →
        ∃ n, start.steps e n = { ({ start with source := .text t }.step e).2 with source := .stream [] } := by
  refine ⟨h.sources hstart, Reader.readsIn, fun r t hsource hterminated hquiet hwell hbytes => ?_⟩
  obtain ⟨n, hn⟩ := Job.steps_stream e t r hquiet hwell hstart hsource hterminated hbytes
  refine ⟨n, hn.trans ?_⟩
  rw [Job.compile_eq_step_text hstart]

/-- A session whose program has two bytes and one letter; the second byte does not come at once. -/
def halved : Job :=
  { (default : Job) with
    phase := .reading ByteArray.empty
    source := .stream [.data ⟨#[0xC3]⟩, .failure ⟨.wouldBlock, ""⟩, .data ⟨#[0xA9]⟩, .failure ⟨.interrupted, ""⟩] }

theorem program_of_bytes_halved :
    let got : List (Except IoError Bytes) :=
      [.ok ⟨#[0xC3]⟩, .error ⟨.wouldBlock, ""⟩, .ok ⟨#[0xA9]⟩, .error ⟨.interrupted, ""⟩]
    let j := halved.steps {} 4
    halved.phase = .reading ByteArray.empty ∧ Sourcing {} halved got j ∧ arrived got = (Bytes.ofString "é").data.toList ∧
      (j.step {}).2 = { ({ j with source := .text "é" }.step {}).2 with source := .stream [] } ∧
      ∃ n, halved.steps {} n = { ({ halved with source := .text "é" }.step {}).2 with source := .stream [] } := by
  intro got j
  have hfirst : Sourcing {} halved (got.take 1) (halved.steps {} 1) :=
    Sourcing.start.attempt rfl rfl (show (1 : Nat) ≠ 0 by decide)
  have hthird : Sourcing {} halved (got.take 3) (halved.steps {} 3) :=
    (hfirst.attempt rfl rfl (.inl rfl)).attempt rfl rfl (show (1 : Nat) ≠ 0 by decide)
  have hreads : Sourcing {} halved got j := hthird.attempt rfl rfl (.inr rfl)
  have hletter : arrived got = (Bytes.ofString "é").data.toList := by decide
  obtain ⟨hsources, -, halone⟩ := program_of_bytes rfl hreads
  refine ⟨rfl, hreads, hletter, hsources.sameAsText "é" (.stream []) false hletter rfl rfl, ?_⟩
  exact halone _ "é" rfl rfl (by simp) rfl hletter

end ScriptHost
