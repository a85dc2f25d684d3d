import GoFire.Foundations.PercentEncoding
import GoFire.Web.Cookies

/-! Messages to the next page: the dashboard escapes them into a cookie, and the script of the pages
finds the cookie and reads the message.
-/

namespace GoFire.Web

open GoFire.CronParser (Text split)

def utf8 (text : Text) : List UInt8 := text.flatMap String.utf8EncodeChar

/-- The bytes that url.QueryEscape leaves: letters, digits, and four signs. -/
def unreserved (byte : UInt8) : Bool :=
  let c := Char.ofNat byte.toNat
  byte.toNat < 128 && (c.isAlphanum || "-_.~".toList.contains c)

def queryEscapeByte (byte : UInt8) : Text :=
  if byte = 32 then ['+'] else PercentEncoding.encodeByte unreserved byte

/-- url.QueryEscape. -/
def queryEscape (message : Text) : Text := (utf8 message).flatMap queryEscapeByte

/-- What the script reads as document.cookie, where all cookies are visible to it. -/
def documentCookie (cookies : List (Text × Text)) : Text := cookieHeader cookies

/-- split at a separator that is not empty; `skip` characters of one that was found are left. -/
def splitText (separator : Text) : Nat → Text → List Text
  | _, [] => [[]]
  | skip + 1, _ :: rest => splitText separator skip rest
  | 0, c :: rest =>
      if separator.isPrefixOf (c :: rest) then
        [] :: splitText separator (separator.length - 1) rest
      else (splitText separator 0 rest).modifyHead (c :: ·)

/-- replaceAll of the plus signs. -/
def spaced (text : Text) : Text := text.map fun c => if c = '+' then ' ' else c

/-- What comes before the value of a cookie. -/
def separatorOf (name : Text) : Text := "; ".toList ++ name ++ ['=']

def getCookie (cookie name : Text) : Option Text :=
  match splitText (separatorOf name) 0 ("; ".toList ++ cookie) with
  | [_, last] => (split last ';').head?.map spaced
  | _ => none

/-- decodeURIComponent, without a value where it throws. -/
def decodeURIComponent (text : Text) : Option Text :=
  (PercentEncoding.decode text).bind fun bytes =>
    (ByteArray.mk bytes.toArray).utf8Decode?.map Array.toList

-----------------------------------------------------------------------------------------
-- Splitting
-----------------------------------------------------------------------------------------

variable {separator : Text}

theorem splitText_skip (skipped rest : Text)
    : splitText separator skipped.length (skipped ++ rest) = splitText separator 0 rest := by
  induction skipped with
  | nil => rfl
  | cons c skipped ih =>
      rw [List.length_cons, List.cons_append, splitText]
      exact ih

theorem splitText_found (c : Char) (tail rest : Text)
    : splitText (c :: tail) 0 (c :: tail ++ rest) = [] :: splitText (c :: tail) 0 rest := by
  have found : (c :: tail).isPrefixOf (c :: (tail ++ rest)) = true :=
    List.isPrefixOf_iff_prefix.mpr ⟨rest, rfl⟩
  rw [List.cons_append, splitText, if_pos found, List.length_cons, Nat.add_sub_cancel,
    splitText_skip]

theorem modifyHead_nil (parts : List Text) : parts.modifyHead ([] ++ ·) = parts := by
  cases parts <;> rfl

theorem modifyHead_append (parts : List Text) (first second : Text)
    : (parts.modifyHead (second ++ ·)).modifyHead (first ++ ·)
      = parts.modifyHead (first ++ second ++ ·) := by
  cases parts with
  | nil => rfl
  | cons part parts => simp

/-- Nothing is split before the first character that can begin a separator, by induction on what
comes before.
-/
theorem splitText_free {c : Char} {tail before : Text} (absent : c ∉ before) (rest : Text)
    : splitText (c :: tail) 0 (before ++ rest)
      = (splitText (c :: tail) 0 rest).modifyHead (before ++ ·) := by
  induction before with
  | nil => exact (modifyHead_nil _).symm
  | cons first before ih =>
      obtain ⟨other, absent⟩ := not_or.mp (mt List.mem_cons.mpr absent)
      have unfound : ¬ (c :: tail).isPrefixOf (first :: (before ++ rest)) = true := by
        simp [List.isPrefixOf, other]
      rw [List.cons_append, splitText, if_neg unfound, ih absent]
      exact modifyHead_append _ [first] before

-----------------------------------------------------------------------------------------
-- Reading a cookie
-----------------------------------------------------------------------------------------

/-- A cookie after the separator of the cookies. -/
def preceded (cookie : Text × Text) : Text := "; ".toList ++ cookiePart cookie

theorem preceded_cookies (cookie : Text × Text) (rest : List (Text × Text))
    : "; ".toList ++ documentCookie (cookie :: rest) = (cookie :: rest).flatMap preceded := by
  induction rest generalizing cookie with
  | nil => simp [documentCookie, cookieHeader, preceded]
  | cons next rest ih =>
      rw [documentCookie, cookieHeader_cons_cons, List.flatMap_cons, ← ih next, preceded,
        documentCookie]
      simp only [List.append_assoc]

theorem separatorOf_eq (name : Text) : separatorOf name = ';' :: (' ' :: name ++ ['=']) := rfl

theorem splitText_named {cookie : Text × Text} {name : Text} (named : cookie.1 = name) (rest : Text)
    : splitText (separatorOf name) 0 (preceded cookie ++ rest)
      = [] :: splitText (separatorOf name) 0 (cookie.2 ++ rest) := by
  have whole : preceded cookie ++ rest
      = ';' :: (' ' :: name ++ ['=']) ++ (cookie.2 ++ rest) := by
    simp [preceded, cookiePart, named]
  rw [separatorOf_eq, whole]
  exact splitText_found ';' _ _

theorem splitText_other {cookie : Text × Text} {name : Text} (plain : Plain cookie)
    (noEquals : '=' ∉ name) (other : cookie.1 ≠ name) (rest : Text)
    : splitText (separatorOf name) 0 (preceded cookie ++ rest)
      = (splitText (separatorOf name) 0 rest).modifyHead (preceded cookie ++ ·) := by
  have whole : preceded cookie ++ rest = ';' :: (' ' :: cookiePart cookie ++ rest) := rfl
  have unfound : ¬ (';' :: (' ' :: name ++ ['='])).isPrefixOf
      (';' :: (' ' :: cookiePart cookie ++ rest)) = true := by
    intro found
    obtain ⟨tail, same⟩ := List.isPrefixOf_iff_prefix.mp found
    have keys : name ++ '=' :: tail = cookie.1 ++ '=' :: (cookie.2 ++ rest) := by
      simpa [cookiePart] using same
    have noEquals' : '=' ∉ cookie.1 :=
      fun mem => (isTokenChar_bounds (plain.name_chars.2 _ mem)).2.1 rfl
    have halves := congrArg (cut · '=') keys
    simp only [cut_append noEquals, cut_append noEquals'] at halves
    exact other (congrArg Prod.fst halves).symm
  have absent : ';' ∉ ' ' :: cookiePart cookie := by
    rw [List.mem_cons, not_or]
    exact ⟨by decide, plain.part.2⟩
  rw [separatorOf_eq, whole, splitText, if_neg unfound, splitText_free absent]
  exact modifyHead_append _ [';'] (' ' :: cookiePart cookie)

/-- Cookies of other names are not split, by induction on them. -/
theorem splitText_others {cookies : List (Text × Text)} {name : Text}
    (plain : ∀ cookie ∈ cookies, Plain cookie) (noEquals : '=' ∉ name)
    (others : ∀ cookie ∈ cookies, cookie.1 ≠ name) (rest : Text)
    : splitText (separatorOf name) 0 (cookies.flatMap preceded ++ rest)
      = (splitText (separatorOf name) 0 rest).modifyHead
          (cookies.flatMap preceded ++ ·) := by
  induction cookies with
  | nil => exact (modifyHead_nil _).symm
  | cons cookie cookies ih =>
      obtain ⟨first, plain⟩ := List.forall_mem_cons.mp plain
      obtain ⟨other, others⟩ := List.forall_mem_cons.mp others
      rw [List.flatMap_cons, List.append_assoc, splitText_other first noEquals other,
        ih plain others, modifyHead_append]

theorem split_value {value : Text} (absent : ';' ∉ value) (cookies : List (Text × Text))
    : (split (value ++ cookies.flatMap preceded) ';').head? = some value := by
  have free : ∀ c ∈ value, (c == ';') = false := by
    intro c mem
    simpa using fun same : c = ';' => absent (same ▸ mem)
  cases cookies with
  | nil =>
      rw [List.flatMap_nil, List.append_nil, split, List.splitOn_eq_splitOnP,
        List.splitOnP_eq_singleton free]
      rfl
  | cons cookie cookies =>
      have whole : value ++ (cookie :: cookies).flatMap preceded
          = value ++ ';' :: (' ' :: cookiePart cookie ++ cookies.flatMap preceded) := by
        simp [preceded]
      rw [whole, split, List.splitOn_eq_splitOnP,
        List.splitOnP_append_cons_of_forall_mem free ';' (by decide)]
      rfl

/-- Where each name has one cookie, the script finds the value of a cookie with its plus signs
replaced.
-/
theorem getCookie_documentCookie {cookies : List (Text × Text)}
    (plain : ∀ cookie ∈ cookies, Plain cookie) (nodup : (cookies.map Prod.fst).Nodup) {name : Text}
    (noEquals : '=' ∉ name)
    : getCookie (documentCookie cookies) name
      = (cookies.find? (fun cookie => cookie.1 = name)).map (fun cookie => spaced cookie.2) := by
  cases cookies with
  | nil =>
      have single : splitText (separatorOf name) 0 "; ".toList = ["; ".toList] := by
        simp [splitText, separatorOf]
      rw [getCookie, documentCookie, cookieHeader, List.map_nil, List.intercalate_nil,
        List.append_nil, single]
      rfl
  | cons first rest =>
      rw [getCookie, preceded_cookies]
      generalize first :: rest = cookies at plain nodup
      cases found : cookies.find? (fun cookie => cookie.1 = name) with
      | none =>
          have others : ∀ cookie ∈ cookies, cookie.1 ≠ name := by
            simpa using List.find?_eq_none.mp found
          have single := splitText_others plain noEquals others []
          rw [List.append_nil] at single
          rw [single]
          rfl
      | some cookie =>
          obtain ⟨named, before, after, rfl, first⟩ := List.find?_eq_some_iff_append.mp found
          have named : cookie.1 = name := by simpa using named
          have earlier : ∀ other ∈ before, other.1 ≠ name := by simpa using first
          have later : ∀ other ∈ after, other.1 ≠ name := by
            intro other mem same
            rw [List.map_append, List.map_cons, List.nodup_append] at nodup
            exact (List.nodup_cons.mp nodup.2.1).1
              (named.trans same.symm ▸ List.mem_map_of_mem mem)
          have value : ';' ∉ cookie.2 := fun mem =>
            (plain cookie (by simp)).part.2 (List.mem_append_right _ (List.mem_cons_of_mem _ mem))
          have parts := splitText_others (fun other mem => plain other (by simp [mem])) noEquals
            earlier (preceded cookie ++ after.flatMap preceded)
          have last := splitText_others (fun other mem => plain other (by simp [mem])) noEquals
            later []
          rw [List.append_nil] at last
          rw [List.flatMap_append, List.flatMap_cons, parts, splitText_named named, separatorOf_eq,
            splitText_free value, ← separatorOf_eq, last]
          simp only [splitText, List.modifyHead, List.append_nil, split_value value, Option.map_some]

-----------------------------------------------------------------------------------------
-- Escaped messages
-----------------------------------------------------------------------------------------

theorem unreserved_iff {byte : UInt8} (kept : unreserved byte = true)
    : byte.toNat < 128 ∧ ((Char.ofNat byte.toNat).isAlphanum = true
        ∨ Char.ofNat byte.toNat ∈ "-_.~".toList) := by
  simpa [unreserved] using kept

/-- The characters of an escaped message can stand in a cookie as they are. -/
def EscapedChar (c : Char) : Prop :=
  validCookieValueByte c = true ∧ c ≠ ' ' ∧ c ≠ ',' ∧ c ≠ '|'

instance (c : Char) : Decidable (EscapedChar c) := inferInstanceAs (Decidable (_ ∧ _))

/-- One check for each byte of ASCII. -/
theorem unreserved_char {byte : UInt8} (kept : unreserved byte = true)
    : EscapedChar (Char.ofNat byte.toNat) ∧ Char.ofNat byte.toNat ≠ '+'
        ∧ byte.toNat ≠ '%'.toNat ∧ byte.toNat ≠ 32 := by
  obtain ⟨small, chars⟩ := unreserved_iff kept
  have all : ((List.range 128).all fun n =>
      decide (((Char.ofNat n).isAlphanum = true ∨ Char.ofNat n ∈ "-_.~".toList)
        → EscapedChar (Char.ofNat n) ∧ Char.ofNat n ≠ '+' ∧ n ≠ '%'.toNat ∧ n ≠ 32)) = true := by
    decide +kernel
  exact of_decide_eq_true (List.all_eq_true.mp all _ (List.mem_range.mpr small)) chars

theorem encodeByte_char {byte : UInt8} {c : Char}
    (mem : c ∈ PercentEncoding.encodeByte unreserved byte)
    : EscapedChar c ∧ c ≠ '+' := by
  have digits : (('%' :: PercentEncoding.digits).all fun c =>
      decide (EscapedChar c ∧ c ≠ '+')) = true := by decide +kernel
  rcases PercentEncoding.mem_encodeByte mem with ⟨kept, rfl⟩ | digit
  · exact ⟨(unreserved_char kept).1, (unreserved_char kept).2.1⟩
  · exact of_decide_eq_true (List.all_eq_true.mp digits c digit)

theorem queryEscape_char {message : Text} {c : Char} (mem : c ∈ queryEscape message)
    : EscapedChar c := by
  obtain ⟨byte, -, mem⟩ := List.mem_flatMap.mp mem
  unfold queryEscapeByte at mem
  split at mem
  case isTrue =>
    rw [List.mem_singleton.mp mem]
    decide
  case isFalse => exact (encodeByte_char mem).1

/-- SetCookie sends an escaped message as it is. -/
theorem sanitizeCookieValue_queryEscape (message : Text)
    : sanitizeCookieValue (queryEscape message) = queryEscape message := by
  have whole : (queryEscape message).filter validCookieValueByte = queryEscape message :=
    List.filter_eq_self.mpr fun c mem => (queryEscape_char mem).1
  have noBlank : ' ' ∉ queryEscape message := fun mem => (queryEscape_char mem).2.1 rfl
  have noComma : ',' ∉ queryEscape message := fun mem => (queryEscape_char mem).2.2.1 rfl
  simp [sanitizeCookieValue, whole, noBlank, noComma]

theorem plain_queryEscape {name : Text} (token : isToken name = true) (message : Text)
    : Plain (name, queryEscape message) :=
  ⟨token, fun _ mem => ⟨(queryEscape_char mem).1, (queryEscape_char mem).2.1⟩⟩

/-- With the blanks back in, only the bytes that are neither unreserved nor blanks are escaped. -/
theorem spaced_queryEscape (message : Text)
    : spaced (queryEscape message)
      = PercentEncoding.encode (fun byte => unreserved byte || byte == 32) (utf8 message) := by
  have each (byte : UInt8)
      : spaced (queryEscapeByte byte)
        = PercentEncoding.encodeByte (fun byte => unreserved byte || byte == 32) byte := by
    unfold queryEscapeByte
    split
    case isTrue blank =>
      subst blank
      rfl
    case isFalse other =>
      have kept : spaced (PercentEncoding.encodeByte unreserved byte)
          = PercentEncoding.encodeByte unreserved byte := by
        rw [spaced, List.map_congr_left fun c mem => if_neg (encodeByte_char mem).2]
        exact List.map_id _
      rw [kept]
      simp [PercentEncoding.encodeByte, other]
  rw [spaced, queryEscape, List.map_flatMap]
  exact List.flatMap_congr fun byte _ => each byte

/-- The script reads the message that was escaped. -/
theorem decodeURIComponent_queryEscape (message : Text)
    : decodeURIComponent (spaced (queryEscape message)) = some message := by
  have keepable : ∀ byte, (unreserved byte || byte == 32) = true
      → PercentEncoding.Keepable byte := by
    intro byte kept
    rcases Bool.or_eq_true_iff.mp kept with kept | blank
    · exact ⟨(unreserved_iff kept).1, (unreserved_char kept).2.2.1⟩
    · rw [eq_of_beq blank]
      exact ⟨by decide, by decide⟩
  have bytes : ByteArray.mk (utf8 message).toArray = message.utf8Encode := by
    rw [List.utf8Encode, utf8]
    exact ByteArray.ext List.data_toByteArray.symm
  rw [decodeURIComponent, spaced_queryEscape, PercentEncoding.decode_encode keepable,
    Option.bind_some, bytes, List.utf8Decode?_utf8Encode]
  rfl

end GoFire.Web
