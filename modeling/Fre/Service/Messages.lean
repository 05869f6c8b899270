import Fre.Foundation.Framing
import Fre.Foundation.JsonText
import Fre.Foundation.Separators
import Fre.Service.ConnectionThread

/-!
# Messages of a client

A client writes the head of a request line by line, the length of the body in
one of them, and then the body.  The service reads this request back, wherever
the line with the length stands, whatever the body holds and whatever follows
it.
-/

namespace Fre
namespace Service
namespace Messages

open Foundation Framing Handlers HttpRequest Stoi Strtod

/-! ### Words and numbers -/

/-- A word: characters, none of which is white space. -/
structure IsWord (word : List Char) : Prop where
  nonempty : word ≠ []
  solid : ∀ character ∈ word, isSpace character = false

/-- A given word has no white space. -/
theorem isWord_of_all
    {word : List Char}
    (nonempty : word ≠ [])
    (solid : word.all (fun character => !isSpace character) = true) :
    IsWord word where
  nonempty := nonempty
  solid := by simpa using solid

theorem readWord_append
    {word : List Char}
    (isWord : IsWord word)
    (rest : List Char) :
    readWord (word ++ ' ' :: rest) = (word, ' ' :: rest) := by
  obtain ⟨first, others, rfl⟩ := List.exists_cons_of_ne_nil isWord.nonempty
  have kept : (first :: others ++ ' ' :: rest).dropWhile isSpace =
      first :: others ++ ' ' :: rest := by
    rw [List.cons_append, List.dropWhile_cons_of_neg]
    simp [isWord.solid first List.mem_cons_self]
  have blank : isSpace ' ' = true := by decide
  have solid : ∀ character ∈ first :: others, (!isSpace character) = true := by
    intro character member
    rw [isWord.solid character member]
    rfl
  rw [readWord, kept, List.takeWhile_append_of_pos solid,
    List.dropWhile_append_of_pos solid]
  simp [blank]

/-- A blank in front of a word. -/
theorem readWord_blank (rest : List Char) :
    readWord (' ' :: rest) = readWord rest := by
  rw [readWord, List.dropWhile_cons_of_pos (by decide), readWord]

/-- A written number of 32 bits is read back. -/
theorem stoi_toDigits
    {number : Nat}
    (fits : number < 2 ^ 31) :
    stoi (Nat.toDigits 10 number) = .ok (Int32.ofInt number) := by
  have value : Stoi.signed false (digitValues 10 (Nat.toDigits 10 number)) =
      number := by
    rw [Stoi.signed, if_neg Bool.false_ne_true, Nat.coe_ofDigits]
    exact (JsonText.written_toDigits number).2
  have starts : StartsWithInt (Nat.toDigits 10 number) [] []
      (Nat.toDigits 10 number) [] := by
    refine ⟨by simp, nofun, .inl rfl, JsonText.digits_toDigits number,
      Nat.toDigits_ne_nil, nofun, ?_⟩
    rw [show isMinus [] = false from rfl, value]
    omega
  rw [stoi_of_startsWithInt starts]
  exact congrArg (fun number => Except.ok (Int32.ofInt number)) value

/-! ### Header lines -/

/-- The line of a header. -/
def headerLine (name value : List Char) : List Char :=
  name ++ ':' :: ' ' :: value

/-- A header is read back, but for blanks in front of its value. -/
theorem splitHeader_headerLine
    {name : List Char}
    (free : ':' ∉ name)
    (value : List Char) :
    splitHeader (headerLine name value) =
      some (name.map Char.toLower, value.dropWhile (· = ' ')) := by
  have before : ∀ character ∈ name, decide (character ≠ ':') = true := by
    intro character member
    exact decide_eq_true fun same => free (same ▸ member)
  rw [splitHeader, headerLine, List.dropWhile_append_of_pos before,
    List.takeWhile_append_of_pos before, List.dropWhile_cons_of_neg (by simp),
    List.takeWhile_cons_of_neg (by simp), List.append_nil]
  simp

/-- A written number has no blank in front. -/
theorem dropWhile_toDigits (number : Nat) :
    (Nat.toDigits 10 number).dropWhile (· = ' ') = Nat.toDigits 10 number := by
  have isDigits := JsonText.digits_toDigits number
  cases digits : Nat.toDigits 10 number with
  | nil => rfl
  | cons first others =>
      rw [digits] at isDigits
      have isDigit := isDigits first List.mem_cons_self
      refine List.dropWhile_cons_of_neg fun blank => ?_
      rw [of_decide_eq_true blank] at isDigit
      exact absurd isDigit (by decide)

/-! ### Requests -/

/-- A request as a client writes it: the words of its first line, the lines of
its head before and after the one with the length of the body, the name of that
header, and the body. -/
structure Message where
  method : List Char
  path : List Char
  version : List Char := "HTTP/1.1".toList
  before : List (List Char) := []
  name : List Char := "Content-Length".toList
  after : List (List Char) := []
  body : List Char := []
  deriving DecidableEq

namespace Message

/-- The line with the length of the body. -/
def lengthLine (message : Message) : List Char :=
  headerLine message.name (Nat.toDigits 10 message.body.length)

/-- The header lines. -/
def headers (message : Message) : List (List Char) :=
  message.before ++ message.lengthLine :: message.after

/-- The first line. -/
def firstLine (message : Message) : List Char :=
  message.method ++ ' ' :: (message.path ++ ' ' :: message.version)

/-- The head. -/
def head (message : Message) : List Char :=
  writeHead '\r' '\n' (message.firstLine :: message.headers)

/-- What the client sends. -/
def text (message : Message) : List Char := message.head ++ message.body

/-- The request that is meant. -/
def request (message : Message) : HttpRequest where
  method := String.ofList message.method
  path := String.ofList message.path
  body := String.ofList message.body
  contentLength := Int32.ofInt message.body.length

/-- The request can be sent: its words are words, its lines are lines, no
header after the length gives another one, and a length before it is a
number. -/
structure Sendable (message : Message) : Prop where
  method : IsWord message.method
  path : IsWord message.path
  version : '\n' ∉ message.version
  lines : ∀ line ∈ message.before ++ message.after, HeadLine '\n' line
  name : message.name.map Char.toLower = "content-length".toList
  numbers : AreNumbers (message.before.filterMap lengthValue)
  last : ∀ line ∈ message.after, lengthValue line = none
  short : message.body.length < 2 ^ 31

theorem IsWord.newline_not_mem
    {word : List Char}
    (isWord : IsWord word) :
    '\n' ∉ word :=
  fun member => absurd (isWord.solid '\n' member) (by decide)

section Reading

variable {message : Message}

theorem headLine_firstLine
    (sendable : message.Sendable) :
    HeadLine '\n' message.firstLine where
  nonempty := by simp [firstLine]
  free := by
    simp [firstLine, IsWord.newline_not_mem sendable.method,
      IsWord.newline_not_mem sendable.path, sendable.version]

/-- A name that is the one of the length in lower case. -/
theorem not_mem_name
    (sendable : message.Sendable)
    {character : Char}
    (other : character.toLower ∉ "content-length".toList) :
    character ∉ message.name := by
  intro member
  rw [← sendable.name] at other
  exact other (List.mem_map_of_mem member)

theorem headLine_lengthLine
    (sendable : message.Sendable) :
    HeadLine '\n' message.lengthLine where
  nonempty := by simp [lengthLine, headerLine]
  free := by
    have named : '\n' ∉ message.name := not_mem_name sendable (by decide)
    have digits : '\n' ∉ Nat.toDigits 10 message.body.length :=
      Separators.not_mem_toDigits (by decide) _
    simp [lengthLine, headerLine, named, digits]

theorem headLine_headers
    (sendable : message.Sendable) :
    ∀ line ∈ message.headers, HeadLine '\n' line := by
  intro line member
  rw [headers, List.mem_append, List.mem_cons] at member
  rcases member with before | rfl | after
  · exact sendable.lines line (List.mem_append_left _ before)
  · exact headLine_lengthLine sendable
  · exact sendable.lines line (List.mem_append_right _ after)

theorem lengthValue_lengthLine
    (sendable : message.Sendable) :
    lengthValue message.lengthLine =
      some (Nat.toDigits 10 message.body.length) := by
  have free : ':' ∉ message.name := not_mem_name sendable (by decide)
  rw [lengthValue, lengthLine, splitHeader_headerLine free, dropWhile_toDigits,
    Option.bind_some]
  exact if_pos sendable.name

theorem getLines_head
    (sendable : message.Sendable) :
    Lines.getLines '\n' message.head =
      (message.firstLine ++ ['\r']) ::
        Lines.getLines '\n' (writeHead '\r' '\n' message.headers) := by
  have free : ∀ line ∈ message.headers, '\n' ∉ line := fun line member =>
    (headLine_headers sendable line member).free
  have allFree : ∀ line ∈ message.firstLine :: message.headers, '\n' ∉ line :=
    List.forall_mem_cons.mpr ⟨(headLine_firstLine sendable).free, free⟩
  rw [head, getLines_writeHead (by decide) allFree,
    getLines_writeHead (by decide) free]
  rfl

/-- The lengths in the head. -/
theorem lengthValues_head
    (sendable : message.Sendable) :
    lengthValues message.head =
      message.before.filterMap lengthValue ++
        [Nat.toDigits 10 message.body.length] := by
  have lines : headerLines (Lines.getLines '\n'
      (writeHead '\r' '\n' message.headers)) = message.headers :=
    headLines_writeHead (by decide) (headLine_headers sendable)
  have noneAfter : message.after.filterMap lengthValue = [] :=
    List.filterMap_eq_nil_iff.mpr sendable.last
  rw [lengthValues, getLines_head sendable, List.drop_one, List.tail_cons, lines,
    headers, List.filterMap_append,
    List.filterMap_cons_some (lengthValue_lengthLine sendable), noneAfter]

theorem areNumbers_head
    (sendable : message.Sendable) :
    AreNumbers (lengthValues message.head) := by
  rw [lengthValues_head sendable]
  intro value member
  rcases List.mem_append.mp member with before | last
  · exact sendable.numbers value before
  · rw [List.mem_singleton] at last
    exact ⟨_, last ▸ stoi_toDigits sendable.short⟩

/-- The head declares the length of the body. -/
theorem declaredLength_head
    (sendable : message.Sendable) :
    declaredLength message.head = Int32.ofInt message.body.length := by
  have last : lastLength (lengthValues message.head) =
      some (Int32.ofInt message.body.length) := by
    rw [lengthValues_head sendable, lastLength, List.filterMap_append,
      List.filterMap_cons_some (by rw [stoi_toDigits sendable.short]; rfl)]
    simp
  rw [declaredLength, last, Option.getD_some]

/-- The first line of the head. -/
theorem requestLine_head
    (sendable : message.Sendable) :
    requestLine message.head =
      (String.ofList message.method, String.ofList message.path) := by
  have line := getLines_head sendable
  rw [requestLine, line, List.headD_cons, Lines.dropMark_append, firstLine,
    readWord_append sendable.method, readWord_blank,
    readWord_append sendable.path]

/-- The request with its body is the one that was meant. -/
theorem withBody_of_describes
    {request : HttpRequest}
    (sendable : message.Sendable)
    (describes : Describes message.head request)
    (after : List Char) :
    Connection.withBody request (message.body ++ after) = message.request := by
  have line := describes.line
  have length := describes.length
  have body := describes.body
  rw [requestLine_head sendable, Prod.mk.injEq] at line
  rw [declaredLength_head sendable] at length body
  have value : (Int32.ofInt message.body.length).toInt = message.body.length :=
    Int32.toInt_ofInt_of_le (le_trans (by decide) (Int.natCast_nonneg _))
      (by exact_mod_cast sendable.short)
  have positive : 0 < Int32.ofInt message.body.length ↔
      0 < message.body.length := by
    rw [Int32.lt_iff_toInt_lt, value]
    exact Int.natCast_pos
  obtain ⟨method, path, oldBody, contentLength⟩ := request
  obtain ⟨rfl, rfl⟩ := line
  subst length
  unfold Connection.withBody Message.request
  dsimp only
  split
  next =>
    rw [value]
    simp
  next noBody =>
    have oldEmpty : oldBody = "" := body noBody
    rw [positive, Nat.pos_iff_ne_zero, not_not,
      List.length_eq_zero_iff] at noBody
    rw [noBody, oldEmpty]

/-- The service reads the request that was meant, wherever the length stands in
its head, whatever its body holds and whatever follows it. -/
theorem request_read_back
    (environment : Connection.Environment)
    (impl : Connection.Impl)
    (sendable : message.Sendable)
    (after : List Char) :
    ConnectionThread.afterText environment impl (message.text ++ after) =
        ConnectionThread.afterRequest environment impl message.request ∧
      Connection.handleConnection environment (message.text ++ after) =
        tryCatch (Connection.dispatch environment message.request)
          fun _ => return () := by
  have nonempty : message.head ≠ [] := by simp [head, writeHead]
  obtain ⟨request, parsed, describes⟩ :=
    parseRequest_of_numbers nonempty (areNumbers_head sendable)
  have read : Lines.readUntil Connection.headEnd (message.text ++ after) =
      some (message.head, message.body ++ after) := by
    rw [text, List.append_assoc]
    exact readUntil_writeHead (by decide) (headLine_firstLine sendable)
      (headLine_headers sendable) _
  have meant := withBody_of_describes sendable describes after
  constructor
  · rw [ConnectionThread.afterText, read]
    simp only [parsed, meant]
  · rw [Connection.handleConnection, read]
    simp only [Connection.answerRequest, parsed]
    rw [← meant]
    rfl

end Reading

/-- A client that posts a body with an empty line in it, with another length
before the right one. -/
def blankLine : Message where
  method := "POST".toList
  path := "/events".toList
  before := ["Host: fre".toList, "Content-Length:7".toList]
  name := "content-LENGTH".toList
  after := ["Accept: */*".toList]
  body := "a\x0d\n\x0d\nb".toList

theorem sendable_blankLine : blankLine.Sendable where
  method := isWord_of_all (by decide) (by decide)
  path := isWord_of_all (by decide) (by decide)
  version := by decide
  lines := by
    have lines : ∀ line ∈ blankLine.before ++ blankLine.after,
        line ≠ [] ∧ '\n' ∉ line := by decide
    exact fun line member => ⟨(lines line member).1, (lines line member).2⟩
  name := by decide
  numbers := by
    intro value member
    have seven : value = "7".toList := by
      revert value
      decide
    exact ⟨7, seven ▸ by decide⟩
  last := by decide
  short := by decide

/-- Its body is read with the empty line. -/
theorem request_read_back_blankLine :
    Connection.handleConnection Connection.eventEnvironment
        (blankLine.text ++ "GET /health".toList) =
      tryCatch (Connection.dispatch Connection.eventEnvironment
        { method := "POST"
          path := "/events"
          body := "a\x0d\n\x0d\nb"
          contentLength := 6 }) fun _ => return () :=
  (request_read_back Connection.eventEnvironment
    Connection.runningImpl sendable_blankLine "GET /health".toList).2

end Message

end Messages
end Service
end Fre
