import Mathlib
import Forum.ImageStore

namespace Forum.ImageStore
open Procedure (Answering run)
open Remote (IsSuccess statusText)

structure Exchange where
  request : Question
  reply : Except String Nat

-- A server answers the last of the requests that it has had, by all of them.
abbrev Server := List Question → Except String Nat

def received : Except String Nat → Outcome Nat
  | .ok status => .done status
  | .error text => .failed (.transport text)

def Server.reply (server : Server) (log : List Exchange) (q : Question) : Except String Nat :=
  server (log.map (·.request) ++ [q])

def Server.answer (server : Server) : Answering ports (List Exchange) := fun log q =>
  (received (server.reply log q), log ++ [⟨q, server.reply log q⟩])

def Question.isObject : Question → Bool
  | .putObject _ _ => true
  | .putBucket _ => false

def objects (log : List Exchange) : List Exchange := log.filter (·.request.isObject)

def buckets (log : List Exchange) : List Exchange := log.filter (!·.request.isObject)

def IsAccepted (reply : Except String Nat) : Prop := ∃ status, reply = .ok status ∧ IsSuccess status

def concluded (what : String) (value : α) : Outcome Nat → Outcome α
  | .done status => if IsSuccess status then .done value else .failed (.imageStorage (what ++ " returned " ++ statusText status))
  | .failed e => .failed e
  | .crashed => .crashed

@[simp] theorem isAccepted_ok {status : Nat} : IsAccepted (.ok status) ↔ IsSuccess status := by simp [IsAccepted]

@[simp] theorem not_isAccepted_error {text : String} : ¬IsAccepted (.error text) := by simp [IsAccepted]

theorem concluded_cases (what : String) (value : α) (reply : Except String Nat) :
    (IsAccepted reply ∧ concluded what value (received reply) = .done value) ∨
      (¬IsAccepted reply ∧ ∃ e, concluded what value (received reply) = .failed e ∧ e.kind = .internal) := by
  cases reply with
  | error text => exact .inr ⟨not_isAccepted_error, _, rfl, rfl⟩
  | ok status =>
    by_cases success : IsSuccess status
    · exact .inl ⟨isAccepted_ok.mpr success, if_pos success⟩
    · exact .inr ⟨mt isAccepted_ok.mp success, _, if_neg success, rfl⟩

theorem concluded_done_iff {what : String} {value a : α} {reply : Except String Nat} :
    concluded what value (received reply) = .done a ↔ IsAccepted reply ∧ value = a := by
  rcases concluded_cases what value reply with ⟨accepted, done⟩ | ⟨refused, e, failed, _⟩
  · simp [accepted, done]
  · simp [refused, failed]

def creating (owner : Int) : String := "creating bucket user-" ++ toString owner

inductive Puts (s : ImageStore) (owner : Int) (url : String) (data : ByteArray) : List Exchange → Outcome Nat → Prop
  | direct (found : reply ≠ .ok 404) : Puts s owner url data [⟨.putObject url data, reply⟩] (received reply)
  | stuck (unmade : ¬IsAccepted made) (kind : e.kind = .internal) :
      Puts s owner url data [⟨.putObject url data, .ok 404⟩, ⟨.putBucket (s.bucketUrl owner), made⟩] (.failed e)
  | retried (made : IsAccepted reply) :
      Puts s owner url data
        [⟨.putObject url data, .ok 404⟩, ⟨.putBucket (s.bucketUrl owner), reply⟩, ⟨.putObject url data, again⟩] (received again)

section
variable (s : ImageStore) (server : Server) (past : List Exchange) (owner : Int)

theorem run_call (q : Question) :
    run server.answer past (.call (I := ports) q) = (received (server.reply past q), past ++ [⟨q, server.reply past q⟩]) :=
  Procedure.run_call server.answer past q

theorem run_createBucket :
    run server.answer past (s.createBucket owner) =
      (concluded (creating owner) () (received (server.reply past (.putBucket (s.bucketUrl owner)))),
        past ++ [⟨.putBucket (s.bucketUrl owner), server.reply past (.putBucket (s.bucketUrl owner))⟩]) := by
  change run server.answer past ((Procedure.call (I := ports) (.putBucket (s.bucketUrl owner))).bind _) = _
  rw [Procedure.run_bind, run_call]
  cases server.reply past (.putBucket (s.bucketUrl owner)) with
  | error text => rfl
  | ok status =>
    simp only [received, concluded]
    split <;> rfl

theorem run_putObject_missing {url : String} {data : ByteArray} (missing : server.reply past (.putObject url data) = .ok 404) :
    run server.answer past (s.putObject owner url data) =
      run server.answer (past ++ [⟨.putObject url data, .ok 404⟩])
        ((s.createBucket owner).bind fun _ => .call (I := ports) (.putObject url data)) := by
  change run server.answer past ((Procedure.call (I := ports) (.putObject url data)).bind _) = _
  rw [Procedure.run_bind, run_call, missing]
  rfl

theorem run_putObject_found {url : String} {data : ByteArray} (found : server.reply past (.putObject url data) ≠ .ok 404) :
    run server.answer past (s.putObject owner url data) =
      (received (server.reply past (.putObject url data)),
        past ++ [⟨.putObject url data, server.reply past (.putObject url data)⟩]) := by
  change run server.answer past ((Procedure.call (I := ports) (.putObject url data)).bind _) = _
  rw [Procedure.run_bind, run_call]
  generalize server.reply past (.putObject url data) = reply at found
  cases reply with
  | error text => rfl
  | ok status =>
    have other : status ≠ 404 := fun same => found (congrArg _ same)
    simp only [received, if_neg other]
    rfl

theorem run_putObject (url : String) (data : ByteArray) :
    ∃ mine outcome, run server.answer past (s.putObject owner url data) = (outcome, past ++ mine) ∧
      Puts s owner url data mine outcome := by
  by_cases missing : server.reply past (.putObject url data) = .ok 404
  · rw [run_putObject_missing s server past owner missing, Procedure.run_bind, run_createBucket]
    generalize server.reply _ (.putBucket (s.bucketUrl owner)) = reply
    rcases concluded_cases (creating owner) () reply with ⟨made, done⟩ | ⟨unmade, e, failed, kind⟩
    · have again := run_call server (past ++ ([⟨.putObject url data, .ok 404⟩] ++ [⟨.putBucket (s.bucketUrl owner), reply⟩]))
        (.putObject url data)
      rw [List.append_assoc _ _ [_]] at again
      rw [done, List.append_assoc]
      exact ⟨_, _, again, .retried made⟩
    · rw [failed, List.append_assoc]
      exact ⟨_, _, rfl, .stuck unmade kind⟩
  · exact ⟨_, _, run_putObject_found s server past owner missing, .direct missing⟩

theorem run_upload (code : String) (data : ByteArray) :
    run server.answer past (s.upload owner code data) =
      ((concluded ("uploading " ++ s.publicUrl owner code) (s.publicUrl owner code)
        (run server.answer past (s.putObject owner (s.publicUrl owner code) data)).1),
        (run server.answer past (s.putObject owner (s.publicUrl owner code) data)).2) := by
  change run server.answer past ((s.putObject owner (s.publicUrl owner code) data).bind _) = _
  rw [Procedure.run_bind]
  obtain ⟨outcome, log⟩ := run server.answer past (s.putObject owner (s.publicUrl owner code) data)
  cases outcome with
  | done status =>
    simp only [concluded]
    split <;> rfl
  | failed e => rfl
  | crashed => rfl

end

-- Numbers are written without a slash, so what stands before the first one after a bucket is the owner.
theorem slash_not_mem (owner : Int) : '/' ∉ (toString owner).toList := by
  have digits : ∀ n : Nat, '/' ∉ n.repr.toList := by
    intro n member
    rw [Nat.toList_repr] at member
    exact absurd (Nat.isDigit_of_mem_toDigits (by decide) (by decide) member) (by decide)
  rw [Int.toString_eq_repr, Int.repr_eq_if]
  split
  · exact digits _
  · rw [String.toList_append, List.mem_append]
    rintro (sign | digit)
    · exact absurd sign (by decide)
    · exact digits _ digit

theorem publicUrl_inj {s : ImageStore} {owner owner' : Int} {code code' : String} :
    s.publicUrl owner' code' = s.publicUrl owner code ↔ owner' = owner ∧ code' = code := by
  constructor
  · intro same
    have chars : (s.root ++ "/user-").toList ++ ((toString owner').toList ++ '/' :: code'.toList) =
        (s.root ++ "/user-").toList ++ ((toString owner).toList ++ '/' :: code.toList) := by
      simpa [publicUrl, bucketUrl, String.toList_append] using congrArg String.toList same
    have rest := List.append_cancel_left chars
    have parts := congrArg (Text.splitAll '/') rest
    rw [Text.splitAll_append (slash_not_mem owner'), Text.splitAll_append (slash_not_mem owner)] at parts
    have digits := (List.cons.inj parts).1
    rw [digits] at rest
    have owners : owner'.repr = owner.repr := String.toList_inj.mp digits
    exact ⟨Int.repr_inj.mp owners, String.toList_inj.mp (List.cons.inj (List.append_cancel_left rest)).2⟩
  · rintro ⟨rfl, rfl⟩
    rfl

-- What the requests of an upload keep to, whatever the server answers, and what the upload makes of the
-- answers.
structure Follows (s : ImageStore) (owner : Int) (code : String) (data : ByteArray) (mine : List Exchange)
    (outcome : Outcome String) : Prop where
  begun : mine ≠ []
  order : mine.map (·.request) <+:
    [.putObject (s.publicUrl owner code) data, .putBucket (s.bucketUrl owner), .putObject (s.publicUrl owner code) data]
  twice : (objects mine).length ≤ 2
  once : (buckets mine).length ≤ 1
  same : ∀ e ∈ objects mine, e.request = .putObject (s.publicUrl owner code) data
  creates : buckets mine ≠ [] ↔ ∃ first, (objects mine).head? = some first ∧ first.reply = .ok 404
  retries : (objects mine).length = 2 ↔ ∃ e ∈ buckets mine, IsAccepted e.reply
  returns : ∀ url, outcome = .done url ↔
    ∃ last, (objects mine).getLast? = some last ∧ IsAccepted last.reply ∧ last.request = .putObject url data
  fails : (∀ url, outcome ≠ .done url) → ∃ e, outcome = .failed e ∧ e.kind = .internal

theorem Puts.follows {s : ImageStore} {owner : Int} {code : String} {data : ByteArray} {mine : List Exchange} {outcome : Outcome Nat}
    (puts : Puts s owner (s.publicUrl owner code) data mine outcome) (what : String) :
    Follows s owner code data mine (concluded what (s.publicUrl owner code) outcome) where
  begun := by cases puts <;> simp
  order := by cases puts <;> simp [List.prefix_cons_iff]
  twice := by cases puts <;> simp [objects, Question.isObject]
  once := by cases puts <;> simp [buckets, Question.isObject]
  same := by cases puts <;> simp [objects, Question.isObject]
  creates := by cases puts <;> simp_all [objects, buckets, Question.isObject]
  retries := by cases puts <;> simp_all [objects, buckets, Question.isObject]
  returns := by
    intro url
    cases puts with
    | direct found => simp [objects, Question.isObject, concluded_done_iff]
    | stuck unmade kind =>
      have missing : ¬IsSuccess 404 := by decide
      simp [objects, Question.isObject, concluded, missing]
    | retried made => simp [objects, Question.isObject, concluded_done_iff]
  fails := by
    intro undone
    cases puts with
    | stuck unmade kind => exact ⟨_, rfl, kind⟩
    | _ =>
      rcases concluded_cases what (s.publicUrl owner code) _ with ⟨_, done⟩ | ⟨_, failed⟩
      · exact absurd done (undone _)
      · exact failed

-- Whatever an object server answers, an upload makes at most two puts of its object and one of its bucket,
-- and returns the address of the object if the server accepted it and an internal error otherwise. No two
-- objects have the same address.
theorem upload_follows_protocol (s : ImageStore) (server : Server) (past : List Exchange) (owner : Int) (code : String)
    (data : ByteArray) :
    (∃ mine outcome, run server.answer past (s.upload owner code data) = (outcome, past ++ mine) ∧
      Follows s owner code data mine outcome) ∧
    ∀ owner' code', s.publicUrl owner' code' = s.publicUrl owner code ↔ owner' = owner ∧ code' = code := by
  refine ⟨?_, fun _ _ => publicUrl_inj⟩
  obtain ⟨mine, outcome, ran, puts⟩ := run_putObject s server past owner (s.publicUrl owner code) data
  rw [run_upload, ran]
  exact ⟨mine, _, rfl, puts.follows _⟩

example :
    let server : Server := fun asked => .ok (if asked.all Question.isObject then 404 else 201)
    let uploaded := run server.answer [] (upload ⟨"http://images.test", 6⟩ 4 "AbC123" .empty)
    uploaded.1 = .done "http://images.test/user-4/AbC123" ∧ uploaded.2.length = 3 := by
  decide

end Forum.ImageStore
