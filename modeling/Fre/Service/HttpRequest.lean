import Fre.Foundation.Lines
import Fre.Foundation.Stoi

/-!
# The requests of the service

`parse_request` reads the head of a request line by line: the method and the
path from the first line, and of the headers the length of the body, for which
the last one counts.  A length that is not a number is thrown out of it.  A text
is the sequence of its bytes.
-/

namespace Fre
namespace Service

open Foundation Lines Stoi Strtod

/-- `HttpRequest`. -/
structure HttpRequest where
  method : String := ""
  path : String := ""
  body : String := ""
  contentLength : Int32 := 0
  deriving DecidableEq

namespace HttpRequest

/-- The operator `>>` of a stream into an empty string: the next word, and the
text after it. -/
def readWord (stream : List Char) : List Char × List Char :=
  let stream := stream.dropWhile isSpace
  (stream.takeWhile fun character => !isSpace character,
    stream.dropWhile fun character => !isSpace character)

/-- The name of a header in lower case, and its value without the spaces in
front; none without a colon. -/
def splitHeader (line : List Char) : Option (List Char × List Char) :=
  match line.dropWhile (· ≠ ':') with
  | [] => none
  | _ :: value =>
      some ((line.takeWhile (· ≠ ':')).map Char.toLower,
        value.dropWhile (· = ' '))

/-- The length of the body after a header. -/
def readHeader (contentLength : Int32) (line : List Char) :
    Except Failure Int32 :=
  match splitHeader line with
  | none => .ok contentLength
  | some (name, value) =>
      if name = "content-length".toList then stoi value else .ok contentLength

/-- The loop over the headers up to the first empty line, with the length and
the text that is left.  There are no more rounds than bytes. -/
def readHeaders : Nat → Int32 → List Char →
    Except Failure (Int32 × List Char)
  | 0, contentLength, stream => .ok (contentLength, stream)
  | rounds + 1, contentLength, stream =>
      match getLine '\n' stream with
      | none => .ok (contentLength, [])
      | some (line, rest) =>
          if dropMark '\r' line = [] then .ok (contentLength, rest)
          else do
            let contentLength ← readHeader contentLength (dropMark '\r' line)
            readHeaders rounds contentLength rest

/-- A buffer of zeros into which a stream was read. -/
def readInto (size : Nat) (stream : List Char) : List Char :=
  stream.take size ++ List.replicate (size - stream.length) '\x00'

/-- `parse_request`; an exception of `std::stoi` goes through. -/
def parseRequest (raw : List Char) : Except Failure (Option HttpRequest) :=
  match getLine '\n' raw with
  | none => .ok none
  | some (line, stream) => do
      let (method, afterMethod) := readWord (dropMark '\r' line)
      let (path, _) := readWord afterMethod
      let (contentLength, rest) ← readHeaders stream.length 0 stream
      let body :=
        if 0 < contentLength then readInto contentLength.toInt.toNat rest else []
      return some
        { method := String.ofList method
          path := String.ofList path
          body := String.ofList body
          contentLength := contentLength }

/-! ### What the head of a request says -/

/-- The lines of the headers. -/
def headerLines (lines : List (List Char)) : List (List Char) :=
  (lines.map (dropMark '\r')).takeWhile (· ≠ [])

/-- The value of a header that gives the length of the body. -/
def lengthValue (line : List Char) : Option (List Char) :=
  (splitHeader line).bind fun (name, value) =>
    if name = "content-length".toList then some value else none

/-- The values of all such headers. -/
def lengthValues (raw : List Char) : List (List Char) :=
  (headerLines ((getLines '\n' raw).drop 1)).filterMap lengthValue

/-- The length that the last of some values gives, if there is one. -/
def lastLength (values : List (List Char)) : Option Int32 :=
  (values.filterMap fun value => (stoi value).toOption).getLast?

/-- The length of the body that the head declares. -/
def declaredLength (raw : List Char) : Int32 :=
  (lastLength (lengthValues raw)).getD 0

/-- The method and the path in the first line. -/
def requestLine (raw : List Char) : String × String :=
  let line := dropMark '\r' ((getLines '\n' raw).headD [])
  (String.ofList (readWord line).1,
    String.ofList (readWord (readWord line).2).1)

/-- All values are numbers for `std::stoi`. -/
def AreNumbers (values : List (List Char)) : Prop :=
  ∀ value ∈ values, ∃ number, stoi value = .ok number

theorem headerLines_cons (line : List Char) (rest : List (List Char)) :
    headerLines (line :: rest) =
      if dropMark '\r' line = [] then []
      else dropMark '\r' line :: headerLines rest := by
  unfold headerLines
  rw [List.map_cons, List.takeWhile_cons]
  by_cases empty : dropMark '\r' line = []
  · simp [empty]
  · simp [empty]

theorem readHeader_eq (contentLength : Int32) (line : List Char) :
    readHeader contentLength line =
      match lengthValue line with
      | none => .ok contentLength
      | some value => stoi value := by
  unfold readHeader lengthValue
  cases splitHeader line with
  | none => rfl
  | some header =>
      obtain ⟨name, value⟩ := header
      by_cases named : name = "content-length".toList
      · simp only [Option.bind_some, if_pos named]
      · simp only [Option.bind_some, if_neg named]

/-- The loop folds the lines of the headers. -/
theorem fst_readHeaders
    {rounds : Nat}
    {stream : List Char}
    (enough : stream.length ≤ rounds)
    (contentLength : Int32) :
    (readHeaders rounds contentLength stream).map Prod.fst =
      (headerLines (getLines '\n' stream)).foldlM readHeader contentLength := by
  induction rounds generalizing stream contentLength with
  | zero =>
      rw [List.length_eq_zero_iff.mp (Nat.le_zero.mp enough)]
      rfl
  | succ rounds inductionHypothesis =>
      rw [readHeaders, getLines_eq]
      cases read : getLine '\n' stream with
      | none => rfl
      | some found =>
          obtain ⟨line, rest⟩ := found
          have shorter := length_of_getLine read
          simp only [headerLines_cons]
          split
          next => rfl
          next =>
            rw [List.foldlM_cons]
            cases readHeader contentLength (dropMark '\r' line) with
            | error failure => rfl
            | ok updated => exact @inductionHypothesis rest (by omega) updated

/-- The headers are read exactly when every length is a number, and the last
one counts. -/
theorem foldlM_readHeader
    (lines : List (List Char))
    (before after : Int32) :
    lines.foldlM readHeader before = .ok after ↔
      AreNumbers (lines.filterMap lengthValue) ∧
        after = (lastLength (lines.filterMap lengthValue)).getD before := by
  unfold AreNumbers
  induction lines generalizing before with
  | nil => simp [lastLength, pure, Except.pure, eq_comm]
  | cons line rest inductionHypothesis =>
      rw [List.foldlM_cons, readHeader_eq, List.filterMap_cons]
      cases named : lengthValue line with
      | none => exact inductionHypothesis before
      | some value =>
          simp only [List.forall_mem_cons]
          cases read : stoi value with
          | error failure =>
              constructor
              · intro impossible
                cases impossible
              · rintro ⟨⟨⟨length, impossible⟩, -⟩, -⟩
                cases impossible
          | ok length =>
              have last : lastLength (value :: rest.filterMap lengthValue) =
                  some ((lastLength (rest.filterMap lengthValue)).getD length) := by
                simp [lastLength, read, Except.toOption, List.getLast?_cons]
              rw [last]
              refine (inductionHypothesis length).trans ?_
              simp

/-- The loop returns exactly when every length is a number. -/
theorem exists_readHeaders_iff (stream : List Char) (length : Int32) :
    (∃ rest, readHeaders stream.length 0 stream = .ok (length, rest)) ↔
      AreNumbers ((headerLines (getLines '\n' stream)).filterMap lengthValue) ∧
        length = (lastLength ((headerLines (getLines '\n' stream)).filterMap
          lengthValue)).getD 0 := by
  rw [← foldlM_readHeader, ← fst_readHeaders (Nat.le_refl stream.length)]
  cases readHeaders stream.length 0 stream with
  | error failure => simp [Except.map]
  | ok result =>
      obtain ⟨found, rest⟩ := result
      simp [Except.map]

/-- The request is the one that the head describes.  It has no body if the head
declares none. -/
structure Describes (raw : List Char) (request : HttpRequest) : Prop where
  line : (request.method, request.path) = requestLine raw
  length : request.contentLength = declaredLength raw
  body : ¬ 0 < declaredLength raw → request.body = ""

/-- A head in which every length is a number is accepted. -/
theorem parseRequest_of_numbers
    {raw : List Char}
    (nonempty : raw ≠ [])
    (numbers : AreNumbers (lengthValues raw)) :
    ∃ request, parseRequest raw = .ok (some request) ∧
      Describes raw request := by
  obtain ⟨line, stream, read⟩ := @exists_getLine _ _ '\n' _ nonempty
  have lines : getLines '\n' raw = line :: getLines '\n' stream := by
    rw [getLines_eq, read]
  rw [lengthValues, lines, List.drop_one, List.tail_cons] at numbers
  obtain ⟨rest, headers⟩ :=
    (exists_readHeaders_iff stream _).mpr ⟨numbers, rfl⟩
  have declared : declaredLength raw =
      (lastLength ((headerLines (getLines '\n' stream)).filterMap
        lengthValue)).getD 0 := by
    rw [declaredLength, lengthValues, lines, List.drop_one, List.tail_cons]
  rw [← declared] at headers
  refine ⟨_, by rw [parseRequest, read]; simp only [headers]; rfl, ?_⟩
  refine ⟨?_, rfl, fun noBody => ?_⟩
  · rw [requestLine, lines]
    rfl
  · rw [if_neg noBody]

/-- A length that is not a number is thrown. -/
theorem parseRequest_of_not_numbers
    {raw : List Char}
    (bad : ¬ AreNumbers (lengthValues raw)) :
    ∃ failure, parseRequest raw = .error failure := by
  cases read : getLine '\n' raw with
  | none =>
      rw [lengthValues, getLines_eq, read] at bad
      exact absurd (by simp [headerLines, AreNumbers]) bad
  | some found =>
      obtain ⟨line, stream⟩ := found
      rw [lengthValues, getLines_eq, read, List.drop_one, List.tail_cons] at bad
      cases headers : readHeaders stream.length 0 stream with
      | error failure =>
          refine ⟨failure, ?_⟩
          rw [parseRequest, read]
          simp only [headers]
          rfl
      | ok result =>
          obtain ⟨length, rest⟩ := result
          have numbers := (exists_readHeaders_iff stream length).mp ⟨rest, headers⟩
          exact absurd numbers.1 bad

end HttpRequest
end Service
end Fre
