import Forum.Procedure
import Forum.Remote
namespace Forum

structure ImageStore where
  root : String
  codeLength : Nat

namespace ImageStore

def open? (root : String) (codeLength : Nat) : Except Error ImageStore :=
  if codeLength = 0 then .error (.invalidInput "object code length must be positive")
  else .ok ⟨Remote.trimRoot root, codeLength⟩

def bucketUrl (s : ImageStore) (owner : Int) : String := s.root ++ "/user-" ++ toString owner

def publicUrl (s : ImageStore) (owner : Int) (code : String) : String := s.bucketUrl owner ++ "/" ++ code

inductive Question
  | putObject (url : String) (data : ByteArray)
  | putBucket (url : String)

abbrev ports : Interface := ⟨Question, fun _ => Nat⟩

def createBucket (s : ImageStore) (owner : Int) : Procedure ports Unit := do
  let status : Nat ← .call (I := ports) (.putBucket (s.bucketUrl owner))
  if Remote.IsSuccess status then return ()
  else .fail (.imageStorage ("creating bucket user-" ++ toString owner ++ " returned " ++ Remote.statusText status))

def putObject (s : ImageStore) (owner : Int) (url : String) (data : ByteArray) : Procedure ports Nat := do
  let status : Nat ← .call (I := ports) (.putObject url data)
  if status = 404 then
    s.createBucket owner
    .call (I := ports) (.putObject url data)
  else return status

def upload (s : ImageStore) (owner : Int) (code : String) (data : ByteArray) : Procedure ports String := do
  let url := s.publicUrl owner code
  let status ← s.putObject owner url data
  if Remote.IsSuccess status then return url
  else .fail (.imageStorage ("uploading " ++ url ++ " returned " ++ Remote.statusText status))

def codeAlphabet : List Char := "ABCDEFGHIJKLMNOPQRSTUVWXYZabcdefghijklmnopqrstuvwxyz0123456789".toList

def codeOf (s : ImageStore) (random : Nat → Nat) : String :=
  .ofList ((List.range s.codeLength).map fun i => codeAlphabet.getD (random i % 62) 'A')

end ImageStore
end Forum
