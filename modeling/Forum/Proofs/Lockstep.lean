import Forum.Proofs.Ticking

namespace Forum

-- Errors that no response tells apart: one error, or two failures of whatever collaborators.
def Error.Alike (e e' : Error) : Prop := e = e' ∨ e.kind = .internal ∧ e'.kind = .internal

namespace Error.Alike
variable {e e' : Error}

theorem refl (e : Error) : Alike e e := .inl rfl

theorem during (operation : String) (alike : Alike e e') : Alike (e.during operation) (e'.during operation) := by
  rcases alike with rfl | ⟨internal, internal'⟩
  · exact .refl _
  · exact .inr ⟨(kind_during _ _).trans internal, (kind_during _ _).trans internal'⟩

end Error.Alike

inductive Outcome.Alike (E : Error → Error → Prop) (V : α → α → Prop) : Outcome α → Outcome α → Prop
  | done (same : V a a') : Alike E V (done a) (done a')
  | failed (alike : E e e') : Alike E V (failed e) (failed e')
  | crashed : Alike E V crashed crashed

inductive Caught (V : α → α → Prop) : Except Error α → Except Error α → Prop
  | ok (same : V a a') : Caught V (.ok a) (.ok a')
  | error (alike : e.Alike e') : Caught V (.error e) (.error e')

namespace Service
open Procedure (Answering run runUntil)
variable {α β : Type} {V : α → α → Prop} {W : β → β → Prop}

-- The errors that may stand for each other in a reply. Those of the identity provider all may.
def Question.Blurs : Question → Error → Error → Prop
  | .provideIdentity _ => fun _ _ => True
  | _ => Error.Alike

-- Two operations that ask the same questions for as long as their replies differ in such errors only,
-- and then come to the same.
inductive Lockstep {α : Type} (V : α → α → Prop) : Operation α → Operation α → Prop
  | done (same : V a a') : Lockstep V (.done a) (.done a')
  | fail (alike : e.Alike e') : Lockstep V (.fail e) (.fail e')
  | crash : Lockstep V .crash .crash
  | ask {q : Question} {next next' : Outcome q.Value → Operation α} (lawful : q.Lawful)
      (rest : ∀ reply reply', Outcome.Alike q.Blurs Eq reply reply' → Lockstep V (next reply) (next' reply')) :
      Lockstep V (.ask q next) (.ask q next')

namespace Lockstep
variable {p p' : Operation α}

theorem bind {f f' : α → Operation β} (first : Lockstep V p p') (rest : ∀ a a', V a a' → Lockstep W (f a) (f' a')) :
    Lockstep W (p >>= f) (p' >>= f') := by
  change Lockstep W (p.bind f) (p'.bind f')
  induction first with
  | done same => exact rest _ _ same
  | fail alike => exact .fail alike
  | crash => exact .crash
  | ask lawful _ ih => exact .ask lawful ih

theorem andThen {f : α → Operation β} (first : Lockstep Eq p p') (rest : ∀ a, Lockstep W (f a) (f a)) :
    Lockstep W (p >>= f) (p' >>= f) :=
  first.bind fun a _ same => same ▸ rest a

theorem during (operation : String) (steps : Lockstep V p p') : Lockstep V (p.during operation) (p'.during operation) := by
  induction steps with
  | done same => exact .done same
  | fail alike => exact .fail (alike.during operation)
  | crash => exact .crash
  | ask lawful _ ih => exact .ask lawful ih

theorem attempt (steps : Lockstep V p p') : Lockstep (Caught V) p.attempt p'.attempt := by
  induction steps with
  | done same => exact .done (.ok same)
  | fail alike => exact .done (.error alike)
  | crash => exact .crash
  | ask lawful _ ih => exact .ask lawful ih

theorem orCrash (found : Option α) : Lockstep Eq (.orCrash found) (.orCrash found) := by
  cases found with
  | none => exact .crash
  | some a => exact .done rfl

theorem call {q : Question} (lawful : q.Lawful) (blurs : q.Blurs = Error.Alike) : Lockstep Eq (Service.ask q) (Service.ask q) := by
  refine .ask lawful fun reply reply' alike => ?_
  cases alike with
  | done same => exact .done same
  | failed alike => exact .fail (blurs ▸ alike)
  | crashed => exact .crash

theorem unlessUp {isUp : σ → Bool} {s t : σ} (clocked : isUp s = isUp t) {outcome outcome' : Outcome α}
    (alike : Outcome.Alike Error.Alike V outcome outcome') :
    Option.Rel (Outcome.Alike Error.Alike V) (if isUp s then none else some outcome) (if isUp t then none else some outcome') := by
  rw [clocked]
  split
  · exact .none
  · exact .some alike

theorem runUntil {answer answer' : Answering ports σ} {R : σ → σ → Prop} (isUp : σ → Bool)
    (clocked : ∀ s t, R s t → isUp s = isUp t)
    (answers : ∀ s t (q : Question), q.Lawful → R s t →
      Outcome.Alike q.Blurs Eq (answer s q).1 (answer' t q).1 ∧ R (answer s q).2 (answer' t q).2)
    (steps : Lockstep V p p') {s t : σ} (related : R s t) :
    Option.Rel (Outcome.Alike Error.Alike V) (runUntil isUp answer s p).1 (runUntil isUp answer' t p').1 ∧
      R (runUntil isUp answer s p).2 (runUntil isUp answer' t p').2 := by
  induction steps generalizing s t with
  | done same => exact ⟨unlessUp (clocked s t related) (.done same), related⟩
  | fail alike => exact ⟨unlessUp (clocked s t related) (.failed alike), related⟩
  | crash => exact ⟨unlessUp (clocked s t related) .crashed, related⟩
  | ask lawful _ ih =>
    simp only [Procedure.runUntil, clocked s t related]
    split
    · exact ⟨.none, related⟩
    · obtain ⟨alike, further⟩ := answers s t _ lawful related
      exact ih _ _ alike further

theorem run {answer answer' : Answering ports σ} {R : σ → σ → Prop}
    (answers : ∀ s t (q : Question), q.Lawful → R s t →
      Outcome.Alike q.Blurs Eq (answer s q).1 (answer' t q).1 ∧ R (answer s q).2 (answer' t q).2)
    (steps : Lockstep V p p') {s t : σ} (related : R s t) :
    Outcome.Alike Error.Alike V (run answer s p).1 (run answer' t p').1 ∧ R (run answer s p).2 (run answer' t p').2 := by
  obtain ⟨ended, further⟩ := steps.runUntil (fun _ => false) (fun _ _ _ => rfl) answers related
  rw [Procedure.runUntil_never, Procedure.runUntil_never] at ended further
  cases ended with
  | some alike => exact ⟨alike, further⟩

end Lockstep

theorem lockstep_sweep : Lockstep Eq Posts.sweep Posts.sweep := by
  refine Lockstep.andThen (.call (q := .now) trivial rfl) fun now => ?_
  exact Lockstep.bind (.attempt (.during _ (.call (q := .archiveExpired now) trivial rfl))) fun _ _ _ => .done rfl

end Service

-- What a mishap inside a transaction comes to. A panic is an error there.
def Mishap.fault : Mishap → Error
  | .error e => e
  | .panic text => .transactionAborted text

inductive Mishap.Alike : Port → Option Mishap → Option Mishap → Prop
  | none : Alike port none none
  | error (alike : e.Alike e') : Alike port (some (.error e)) (some (.error e'))
  | identity : Alike .identity (some (.error e)) (some (.error e'))
  | panic : Alike port (some (.panic text)) (some (.panic text'))
  | inside {one two : Mishap} (within : port = .insert ∨ port = .expiry) (internal : one.fault.kind = .internal)
      (internal' : two.fault.kind = .internal) : Alike port (some one) (some two)

def Script.Alike (one two : Script) : Prop := ∀ port, Mishap.Alike port (one port) (two port)

theorem Mishap.Alike.refl (port : Port) (mishap : Option Mishap) : Alike port mishap mishap := by
  rcases mishap with _ | e | text
  · exact .none
  · exact .error (.refl e)
  · exact .panic

theorem Mishap.Alike.faults {one two : Mishap} (alike : Alike port (some one) (some two)) (known : port ≠ .identity) :
    one.fault.Alike two.fault := by
  cases alike with
  | error alike => exact alike
  | identity => exact absurd rfl known
  | panic => exact .inr ⟨rfl, rfl⟩
  | inside _ internal internal' => exact .inr ⟨internal, internal'⟩

theorem Script.Alike.orElse {one two : Script} (alike : one.Alike two) (rest : Script) : (one.orElse rest).Alike (two.orElse rest) := by
  intro port
  have here := alike port
  unfold Script.orElse
  generalize one port = first at here ⊢
  generalize two port = second at here ⊢
  cases here with
  | none => exact .refl port _
  | error alike => exact .error alike
  | identity => exact .identity
  | panic => exact .panic
  | inside within internal internal' => exact .inside within internal internal'

namespace Transaction
open Service.Comments (saving)
variable {one two : Script} {comment : NewComment} {expiry : Instant}

def Ending.fault? : Ending α → Option Error
  | .done _ => none
  | .failed e => some e
  | .gaveUp text => some (.transactionAborted (text.getD "panic"))

inductive Ending.Alike : Ending α → Ending α → Prop
  | done (value : α) : Alike (.done value) (.done value)
  | stopped {one two : Ending α} (fault : one.fault? = some e) (fault' : two.fault? = some e') (alike : e.Alike e') : Alike one two

def moving (post : Int) (expiry : Instant) (id : Int) : Work Int :=
  .setExpiry post expiry fun
    | .error e => .fail e
    | .ok () => .done id

theorem perform_saving_met {m : Mishaps} {mishap : Mishap} (met : m.insert = some mishap) (t : Transaction) :
    ∃ ending, perform m t (saving comment expiry) = (ending, t) ∧ ending.fault? = some mishap.fault := by
  cases mishap with
  | error e => exact ⟨.failed e, by simp only [saving, perform, met], rfl⟩
  | panic text => exact ⟨.gaveUp (some text), by simp only [saving, perform, met], rfl⟩

theorem perform_moving_met {m : Mishaps} {mishap : Mishap} (met : m.expiry = some mishap) (post id : Int) (t : Transaction) :
    ∃ ending, perform m t (moving post expiry id) = (ending, t) ∧ ending.fault? = some mishap.fault := by
  cases mishap with
  | error e => exact ⟨.failed e, by simp only [moving, perform, met], rfl⟩
  | panic text => exact ⟨.gaveUp (some text), by simp only [moving, perform, met], rfl⟩

theorem met_alike {x y : Ending α × Transaction} {t : Transaction} {one two : Mishap}
    (left : ∃ ending, x = (ending, t) ∧ ending.fault? = some one.fault)
    (right : ∃ ending, y = (ending, t) ∧ ending.fault? = some two.fault) (alike : one.fault.Alike two.fault) :
    Ending.Alike x.1 y.1 ∧ x.2 = y.2 := by
  obtain ⟨_, rfl, fault⟩ := left
  obtain ⟨_, rfl, fault'⟩ := right
  exact ⟨.stopped fault fault' alike, rfl⟩

theorem moving_alike (alike : one.Alike two) (post id : Int) (t : Transaction) :
    Ending.Alike (perform one.transaction t (moving post expiry id)).1 (perform two.transaction t (moving post expiry id)).1 ∧
      (perform one.transaction t (moving post expiry id)).2 = (perform two.transaction t (moving post expiry id)).2 := by
  have expiring := alike .expiry
  generalize met : one .expiry = first at expiring
  generalize met' : two .expiry = second at expiring
  have met : one.transaction.expiry = first := met
  have met' : two.transaction.expiry = second := met'
  rcases first with _ | mishap <;> rcases second with _ | mishap'
  · unfold moving perform
    rw [met, met']
    dsimp only
    cases t.connection.store.setPostExpiry post expiry with
    | none => exact ⟨.stopped rfl rfl (.refl _), rfl⟩
    | some after => exact ⟨.done id, rfl⟩
  · cases expiring
  · cases expiring
  · exact met_alike (perform_moving_met met post id t) (perform_moving_met met' post id t) (expiring.faults (by decide))

theorem saving_alike (alike : one.Alike two) (comment : NewComment) (expiry : Instant) (t : Transaction) :
    Ending.Alike (perform one.transaction t (saving comment expiry)).1 (perform two.transaction t (saving comment expiry)).1 ∧
      (perform one.transaction t (saving comment expiry)).2 = (perform two.transaction t (saving comment expiry)).2 := by
  have inserting := alike .insert
  generalize met : one .insert = first at inserting
  generalize met' : two .insert = second at inserting
  have met : one.transaction.insert = first := met
  have met' : two.transaction.insert = second := met'
  rcases first with _ | mishap <;> rcases second with _ | mishap'
  · unfold saving perform
    rw [met, met']
    dsimp only
    cases t.connection.store.addComment comment with
    | error fault => exact ⟨.stopped rfl rfl (.refl _), rfl⟩
    | ok added => exact moving_alike alike comment.postId added.1 (t.write added.2)
  · cases inserting
  · cases inserting
  · exact met_alike (perform_saving_met met t) (perform_saving_met met' t) (inserting.faults (by decide))

theorem within_alike (alike : one.Alike two) (comment : NewComment) (expiry : Instant) (c : Connection) :
    Outcome.Alike Error.Alike Eq (within one.transaction (saving comment expiry) c).1 (within two.transaction (saving comment expiry) c).1 ∧
      (within one.transaction (saving comment expiry) c).2 = (within two.transaction (saving comment expiry) c).2 := by
  have beginning := alike .begins
  have committing := alike .commit
  unfold within
  change Mishap.Alike _ one.transaction.begins two.transaction.begins at beginning
  generalize one.transaction.begins = first at beginning ⊢
  generalize two.transaction.begins = second at beginning ⊢
  cases beginning with
  | error alike => exact ⟨.failed alike, rfl⟩
  | panic => exact ⟨.crashed, rfl⟩
  | inside within => rcases within with same | same <;> cases same
  | none =>
    dsimp only
    cases c.begin with
    | error fault => exact ⟨.failed (.refl _), rfl⟩
    | ok opened =>
      obtain ⟨endings, same⟩ := saving_alike alike comment expiry opened
      dsimp only
      generalize perform one.transaction opened (saving comment expiry) = performed at endings same ⊢
      generalize perform two.transaction opened (saving comment expiry) = performed' at endings same ⊢
      obtain ⟨ending, t⟩ := performed
      obtain ⟨ending', t'⟩ := performed'
      obtain rfl : t = t' := same
      cases endings with
      | done a =>
        change Mishap.Alike _ one.transaction.commit two.transaction.commit at committing
        generalize one.transaction.commit = first at committing ⊢
        generalize two.transaction.commit = second at committing ⊢
        cases committing with
        | none => exact ⟨.done rfl, rfl⟩
        | error alike => exact ⟨.failed alike, rfl⟩
        | panic => exact ⟨.crashed, rfl⟩
        | inside within => rcases within with same | same <;> cases same
      | stopped fault fault' alike =>
        cases ending <;> cases ending' <;> cases fault <;> cases fault' <;> exact ⟨.failed alike, rfl⟩

end Transaction

namespace Backend
open Service (Operation Question ports)
open Service.Comments (saving)
variable {b c : Backend} {E : Error → Error → Prop}

def Twins (b c : Backend) : Prop := ∃ script, c = { b with script } ∧ b.script.Alike script

structure Agrees (E : Error → Error → Prop) (x y : Outcome α × Backend) : Prop where
  replies : Outcome.Alike E Eq x.1 y.1
  states : Twins x.2 y.2

theorem agrees_meeting {x y : Outcome α × Backend} {one two : Option Mishap} {port : Port} (met : Mishap.Alike port one two)
    (outside : port ≠ .insert ∧ port ≠ .expiry) (blurs : ∀ e e', e.Alike e' ∨ port = .identity → E e e')
    (parts : Agrees E x y) (left : Twins b c) : Agrees E (meeting one x b) (meeting two y c) := by
  cases met with
  | none => exact parts
  | error alike => exact ⟨.failed (blurs _ _ (.inl alike)), left⟩
  | identity => exact ⟨.failed (blurs _ _ (.inr rfl)), left⟩
  | panic => exact ⟨.crashed, left⟩
  | inside within =>
    rcases within with same | same
    · exact absurd same outside.1
    · exact absurd same outside.2

theorem agrees_outer {x y : Outcome α × Backend} {one two : Option Mishap} {port : Port} (met : Mishap.Alike port one two)
    (outer : (port ≠ .insert ∧ port ≠ .expiry) ∧ port ≠ .identity) (parts : Agrees Error.Alike x y) (left : Twins b c) :
    Agrees Error.Alike (meeting one x b) (meeting two y c) :=
  agrees_meeting met outer.1 (fun _ _ either => either.resolve_right outer.2) parts left

theorem agrees_reading (twins : Twins b c) (found : Except DatabaseFault α) :
    Agrees Error.Alike (b.reading found) (c.reading found) := by
  cases found with
  | error fault => exact ⟨.failed (.refl _), twins⟩
  | ok a => exact ⟨.done rfl, twins⟩

theorem agrees_writing (twins : Twins b c) (written : Except Error (α × Store)) :
    Agrees Error.Alike (b.writing written) (c.writing written) := by
  obtain ⟨script, rfl, alike⟩ := twins
  cases written with
  | error e => exact ⟨.failed (.refl e), script, rfl, alike⟩
  | ok both => exact ⟨.done rfl, script, rfl, alike⟩

theorem Twins.mishap (twins : Twins b c) (port : Port) : Mishap.Alike port (b.mishap port) (c.mishap port) := by
  obtain ⟨script, rfl, alike⟩ := twins
  exact alike.orElse (.without b.gone) port

theorem Twins.sweptFirst (twins : Twins b c) : Twins b.sweptFirst c.sweptFirst := by
  obtain ⟨script, rfl, alike⟩ := twins
  unfold Backend.sweptFirst
  dsimp only
  split <;> exact ⟨script, rfl, alike⟩

theorem Twins.withinTransaction (twins : Twins b c) (new : NewComment) (expiry : Instant) :
    Agrees Error.Alike (b.withinTransaction (saving new expiry)) (c.withinTransaction (saving new expiry)) := by
  obtain ⟨script, rfl, alike⟩ := twins
  obtain ⟨replies, same⟩ := Transaction.within_alike (alike.orElse (.without b.gone)) new expiry b.toConnection
  exact ⟨replies, script, congrArg (fun toConnection => ({ b with toConnection, script } : Backend)) same.symm, alike⟩

theorem Twins.transact (twins : Twins b c) (new : NewComment) (expiry : Instant) :
    Agrees Error.Alike (b.transact (saving new expiry)) (c.transact (saving new expiry)) := by
  obtain ⟨script, rfl, alike⟩ := twins
  have counted : Twins { b with calls := { b.calls with begins := b.calls.begins + 1 } }
      { b with script, calls := { b.calls with begins := b.calls.begins + 1 } } := ⟨script, rfl, alike⟩
  exact agrees_outer (counted.mishap .begins) (by decide) (counted.sweptFirst.withinTransaction new expiry) counted

theorem Twins.answerNow (twins : Twins b c) {q : Question} (lawful : q.Lawful) : Agrees q.Blurs (b.answerNow q) (c.answerNow q) := by
  have mishaps := twins.mishap
  obtain ⟨script, rfl, alike⟩ := id twins
  have noted : ∀ calls, Twins { b with calls } { b with script, calls } := fun _ => ⟨script, rfl, alike⟩
  cases q with
  | now => exact ⟨.done rfl, twins⟩
  | uptime => exact ⟨.done rfl, twins⟩
  | provideIdentity hold => exact agrees_meeting (mishaps .identity) (by decide) (fun _ _ _ => trivial) ⟨.done rfl, noted _⟩ (noted _)
  | drawEntropy => exact agrees_outer (mishaps .entropy) (by decide) ⟨.done rfl, noted _⟩ (noted _)
  | upload owner image => exact agrees_outer (mishaps .images) (by decide) ⟨.done rfl, noted _⟩ (noted _)
  | ping => exact agrees_outer (mishaps .ping) (by decide) ⟨.done rfl, twins⟩ twins
  | findSession hash => exact agrees_outer (mishaps .findSession) (by decide) (agrees_reading twins _) twins
  | findPost id => exact agrees_outer (mishaps .findPost) (by decide) (agrees_reading twins _) twins
  | listComments post => exact agrees_outer (mishaps .listComments) (by decide) (agrees_reading twins _) twins
  | listPosts archived page =>
    cases archived with
    | false => exact agrees_outer (mishaps .listActive) (by decide) (agrees_reading twins _) twins
    | true => exact agrees_outer (mishaps .listArchived) (by decide) (agrees_reading twins _) twins
  | storeSession new => exact agrees_outer (mishaps .storeSession) (by decide) (agrees_writing twins _) twins
  | updateSession hash edit => exact agrees_outer (mishaps .updateSession) (by decide) (agrees_writing twins _) twins
  | savePost new => exact agrees_outer (mishaps .savePost) (by decide) (agrees_writing twins _) twins
  | archiveExpired cutoff => exact agrees_outer (mishaps .archiveExpired) (by decide) (agrees_writing (noted _) _) (noted _)
  | transact work =>
    obtain ⟨new, expiry, rfl⟩ := lawful
    exact twins.transact new expiry

theorem Twins.sweepTimes (twins : Twins b c) (count : Nat) : Twins (b.sweepTimes count) (c.sweepTimes count) := by
  induction count generalizing b c with
  | zero => exact twins
  | succ count ih =>
    refine ih (Service.lockstep_sweep.run (R := Twins) ?_ twins).2
    intro b c q lawful twins
    obtain ⟨replies, states⟩ := twins.answerNow lawful
    exact ⟨replies, states⟩

theorem Twins.pass (twins : Twins b c) (millis : Nat) : Twins (b.pass millis) (c.pass millis) := by
  obtain ⟨script, rfl, alike⟩ := twins
  unfold Backend.pass
  dsimp only
  split
  · exact ⟨script, rfl, alike⟩
  · refine Twins.sweepTimes ?_ _
    exact ⟨script, rfl, alike⟩

theorem Twins.answer (twins : Twins b c) {q : Question} (lawful : q.Lawful) : Agrees q.Blurs (b.answer q) (c.answer q) := by
  obtain ⟨replies, states⟩ := twins.answerNow lawful
  have delays : b.delay q = c.delay q := by
    obtain ⟨script, rfl, _⟩ := twins
    cases q <;> rfl
  refine ⟨replies, ?_⟩
  change Twins ((b.answerNow q).2.pass (b.delay q)) ((c.answerNow q).2.pass (c.delay q))
  rw [delays]
  exact states.pass _

-- Answers questions while time goes by and mishaps come and go: at question `n` the clock shows
-- `clocks n`, and whatever fails does so as in `scripts n`.
def amid (clocks : Nat → Instant) (scripts : Nat → Script) : Procedure.Answering ports (Nat × Backend) := fun s q =>
  let (reply, after) := { s.2 with clock := clocks s.1, script := scripts s.1 }.answer q
  (reply, s.1 + 1, after)

def Paired (s t : Nat × Backend) : Prop := s.1 = t.1 ∧ ∃ script, t.2 = { s.2 with script }

theorem paired_amid (clocks : Nat → Instant) {one two : Nat → Script} (alike : ∀ n, (one n).Alike (two n)) {s t : Nat × Backend}
    {q : Question} (lawful : q.Lawful) (paired : Paired s t) :
    Outcome.Alike q.Blurs Eq (amid clocks one s q).1 (amid clocks two t q).1 ∧ Paired (amid clocks one s q).2 (amid clocks two t q).2 := by
  obtain ⟨n, b⟩ := s
  obtain ⟨m, c⟩ := t
  obtain ⟨rfl, script, rfl⟩ := paired
  have twins : Twins { b with clock := clocks n, script := one n } { b with clock := clocks n, script := two n } := ⟨two n, rfl, alike n⟩
  obtain ⟨replies, other, same, _⟩ := twins.answer lawful
  exact ⟨replies, rfl, other, same⟩

theorem runUntil_amid (isUp : Backend → Bool) (p : Operation α) (b : Backend) :
    ∃ m, Procedure.runUntil (fun s => isUp s.2) (amid (fun _ => b.clock) fun _ => b.script) (0, b) p =
      ((Procedure.runUntil isUp answer b p).1, m, (Procedure.runUntil isUp answer b p).2) := by
  refine runUntil_counted (K := fun c => c.clock = b.clock ∧ c.script = b.script) ?_ ?_ isUp p 0 ⟨rfl, rfl⟩
  · intro n c q same
    rw [amid, ← same.1, ← same.2]
  · intro c q same
    have frame := answer_frame c q
    exact ⟨frame.clock.trans same.1, frame.script.trans same.2⟩

end Backend

end Forum
