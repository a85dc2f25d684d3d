import GoFire.CronParser.Text

/-! Cookies between the dashboard and a browser, as net/http writes and reads them: the value that
SetCookie sends, the Cookie header a browser sends back, and what Request.Cookie finds in it.
-/

namespace GoFire.Web

open GoFire.CronParser (Text split)

/-- The characters of a cookie's value. -/
def validCookieValueByte (c : Char) : Bool :=
  ' ' ≤ c && c < '\x7f' && c ≠ '"' && c ≠ ';' && c ≠ '\\'

/-- The characters of a cookie's name. -/
def isTokenChar (c : Char) : Bool :=
  c.isAlphanum || "!#$%&'*+-.^_`|~".toList.contains c

def isToken (text : Text) : Bool := !text.isEmpty && text.all isTokenChar

/-- SetCookie drops what is no value and quotes a value with a blank or a comma. -/
def sanitizeCookieValue (value : Text) : Text :=
  let value := value.filter validCookieValueByte
  if value.contains ' ' || value.contains ',' then '"' :: value ++ ['"'] else value

def isASCIISpace (c : Char) : Bool := c == ' ' || c == '\t' || c == '\n' || c == '\r'

/-- textproto.TrimString. -/
def trimString (text : Text) : Text :=
  ((text.dropWhile isASCIISpace).reverse.dropWhile isASCIISpace).reverse

/-- strings.Cut at one character. -/
def cut (text : Text) (separator : Char) : Text × Text :=
  (text.takeWhile (· ≠ separator), (text.dropWhile (· ≠ separator)).drop 1)

/-- A value in quotes is read without them. -/
def parseCookieValue (raw : Text) : Option Text :=
  let value :=
    if 1 < raw.length ∧ raw.head? = some '"' ∧ raw.getLast? = some '"' then
      (raw.drop 1).dropLast
    else raw
  if value.all validCookieValueByte then some value else none

/-- The value of one part of a Cookie header, if it is a cookie of that name. -/
def readCookie (name part : Text) : Option Text :=
  let (key, raw) := cut (trimString part) '='
  if isToken (trimString key) && trimString key = name then parseCookieValue raw else none

/-- Request.Cookie: the first cookie of that name in the Cookie headers. -/
def requestCookie (lines : List Text) (name : Text) : Option Text :=
  (lines.flatMap fun line => (split (trimString line) ';').filterMap (readCookie name)).head?

/-- A cookie in the header of a browser. -/
def cookiePart (cookie : Text × Text) : Text := cookie.1 ++ '=' :: cookie.2

/-- The Cookie header of a browser that holds these cookies. -/
def cookieHeader (cookies : List (Text × Text)) : Text :=
  "; ".toList.intercalate (cookies.map cookiePart)

/-- The cookies that come back as they are: a name, and a value without blanks. -/
structure Plain (cookie : Text × Text) : Prop where
  name : isToken cookie.1 = true
  value : ∀ c ∈ cookie.2, validCookieValueByte c = true ∧ c ≠ ' '

instance (cookie : Text × Text) : Decidable (Plain cookie) :=
  decidable_of_iff
    ((isToken cookie.1 && cookie.2.all fun c => validCookieValueByte c && c != ' ') = true)
    ⟨fun h => by
      rw [Bool.and_eq_true, List.all_eq_true] at h
      exact ⟨h.1, fun c mem => by simpa using h.2 c mem⟩,
    fun plain => by
      rw [Bool.and_eq_true, List.all_eq_true]
      exact ⟨plain.name, fun c mem => by simpa using plain.value c mem⟩⟩

-----------------------------------------------------------------------------------------
-- Trimming and cutting
-----------------------------------------------------------------------------------------

/-- There is no space to trim at either end. -/
structure Tight (text : Text) : Prop where
  head : ∀ c ∈ text.head?, isASCIISpace c = false
  last : ∀ c ∈ text.getLast?, isASCIISpace c = false

theorem dropWhile_of_head {p : Char → Bool} {text : Text} (kept : ∀ c ∈ text.head?, p c = false)
    : text.dropWhile p = text := by
  cases text with
  | nil => rfl
  | cons c rest => rw [List.dropWhile_cons_of_neg (by simp [kept c rfl])]

theorem Tight.trimString {text : Text} (tight : Tight text) : trimString text = text := by
  have back : text.reverse.dropWhile isASCIISpace = text.reverse := by
    apply dropWhile_of_head
    rw [List.head?_reverse]
    exact tight.last
  rw [Web.trimString, dropWhile_of_head tight.head, back, List.reverse_reverse]

/-- One leading blank is trimmed. -/
theorem Tight.trimString_blank {text : Text} (tight : Tight text)
    : Web.trimString (' ' :: text) = text := by
  rw [Web.trimString, List.dropWhile_cons_of_pos (by decide)]
  exact tight.trimString

theorem Tight.append {first second : Text} (middle : Text) (nonempty : first ≠ [])
    (nonempty' : second ≠ []) (tight : Tight first) (tight' : Tight second)
    : Tight (first ++ middle ++ second) := by
  constructor
  · rw [List.append_assoc, List.head?_append_of_ne_nil _ nonempty]
    exact tight.head
  · rw [List.getLast?_append_of_ne_nil _ nonempty']
    exact tight'.last

theorem tight_of_forall {text : Text} (none : ∀ c ∈ text, isASCIISpace c = false) : Tight text :=
  ⟨fun c mem => none c (List.mem_of_mem_head? mem), fun c mem => none c (List.mem_of_getLast? mem)⟩

theorem cut_append {before after : Text} {separator : Char} (absent : separator ∉ before)
    : cut (before ++ separator :: after) separator = (before, after) := by
  have kept : ∀ c ∈ before, decide (c ≠ separator) = true :=
    fun c mem => decide_eq_true fun same => absent (same ▸ mem)
  rw [cut, List.takeWhile_append_of_pos kept, List.dropWhile_append_of_pos kept]
  simp

-----------------------------------------------------------------------------------------
-- Round trip
-----------------------------------------------------------------------------------------

theorem isTokenChar_bounds {c : Char} (h : isTokenChar c = true)
    : isASCIISpace c = false ∧ c ≠ '=' ∧ c ≠ ';' := by
  refine ⟨?_, ?_, ?_⟩
  · by_contra space
    simp only [isASCIISpace, Bool.not_eq_false, Bool.or_eq_true, beq_iff_eq] at space
    rcases space with ((rfl | rfl) | rfl) | rfl <;> exact absurd h (by decide)
  · rintro rfl
    exact absurd h (by decide)
  · rintro rfl
    exact absurd h (by decide)

theorem isASCIISpace_value {c : Char} (valid : validCookieValueByte c = true) (other : c ≠ ' ')
    : isASCIISpace c = false := by
  by_contra space
  simp only [isASCIISpace, Bool.not_eq_false, Bool.or_eq_true, beq_iff_eq] at space
  rcases space with ((rfl | rfl) | rfl) | rfl
  · exact other rfl
  · exact absurd valid (by decide)
  · exact absurd valid (by decide)
  · exact absurd valid (by decide)

namespace Plain

variable {cookie : Text × Text} (plain : Plain cookie)

include plain

theorem name_chars : cookie.1 ≠ [] ∧ ∀ c ∈ cookie.1, isTokenChar c = true := by
  have token := plain.name
  rw [isToken, Bool.and_eq_true, List.all_eq_true] at token
  exact ⟨by simpa using token.1, token.2⟩

/-- A part of the header has no space at its ends and no separator. -/
theorem part : Tight (cookiePart cookie) ∧ ';' ∉ cookiePart cookie := by
  obtain ⟨-, token⟩ := plain.name_chars
  have chars : ∀ c ∈ cookiePart cookie, isASCIISpace c = false ∧ c ≠ ';' := by
    intro c mem
    rcases List.mem_append.mp mem with key | later
    · exact ⟨(isTokenChar_bounds (token c key)).1, (isTokenChar_bounds (token c key)).2.2⟩
    · rcases List.mem_cons.mp later with rfl | value
      · decide
      · obtain ⟨valid, other⟩ := plain.value c value
        refine ⟨isASCIISpace_value valid other, ?_⟩
        rintro rfl
        exact absurd valid (by decide)
  exact ⟨tight_of_forall fun c mem => (chars c mem).1, fun mem => (chars _ mem).2 rfl⟩

theorem parseCookieValue : Web.parseCookieValue cookie.2 = some cookie.2 := by
  have unquoted : cookie.2.head? ≠ some '"' := by
    intro quoted
    exact absurd (plain.value _ (List.mem_of_mem_head? quoted)).1 (by decide)
  have valid : cookie.2.all validCookieValueByte = true :=
    List.all_eq_true.mpr fun c mem => (plain.value c mem).1
  simp [Web.parseCookieValue, unquoted, valid]

/-- A part of the header is read as its cookie, with or without the blank before it. -/
theorem readCookie (name : Text)
    : Web.readCookie name (cookiePart cookie) = (if cookie.1 = name then some cookie.2 else none)
      ∧ Web.readCookie name (' ' :: cookiePart cookie)
        = if cookie.1 = name then some cookie.2 else none := by
  obtain ⟨-, token⟩ := plain.name_chars
  have tight : Tight cookie.1 := tight_of_forall fun c mem => (isTokenChar_bounds (token c mem)).1
  have noEquals : '=' ∉ cookie.1 := fun mem => (isTokenChar_bounds (token _ mem)).2.1 rfl
  have halves : cut (cookiePart cookie) '=' = cookie := cut_append noEquals
  simp only [Web.readCookie, plain.part.1.trimString, plain.part.1.trimString_blank, halves,
    tight.trimString, plain.name, plain.parseCookieValue, Bool.true_and, decide_eq_true_eq,
    and_self]

end Plain

theorem cookieHeader_cons_cons (cookie next : Text × Text) (rest : List (Text × Text))
    : cookieHeader (cookie :: next :: rest)
      = cookiePart cookie ++ "; ".toList ++ cookieHeader (next :: rest) := by
  simp only [cookieHeader, List.map_cons, List.intercalate_cons_cons]

/-- The header as the parts between its semicolons, by induction on the cookies. -/
theorem cookieHeader_cons (cookie : Text × Text) (rest : List (Text × Text))
    : cookieHeader (cookie :: rest)
      = [';'].intercalate (cookiePart cookie :: rest.map fun other => ' ' :: cookiePart other) := by
  induction rest generalizing cookie with
  | nil => simp [cookieHeader]
  | cons next rest ih =>
      have blank : [';'].intercalate
            ((' ' :: cookiePart next) :: rest.map fun other => ' ' :: cookiePart other)
          = ' ' :: [';'].intercalate
              (cookiePart next :: rest.map fun other => ' ' :: cookiePart other) := by
        cases rest <;> simp [List.intercalate_cons_cons]
      rw [cookieHeader_cons_cons, ih next, List.map_cons, List.intercalate_cons_cons, blank]
      simp

/-- Nothing is trimmed off the header, by induction on the cookies. -/
theorem cookieHeader_tight {cookies : List (Text × Text)} (plain : ∀ cookie ∈ cookies, Plain cookie)
    : Tight (cookieHeader cookies) := by
  induction cookies with
  | nil => exact tight_of_forall fun c mem => absurd mem List.not_mem_nil
  | cons cookie rest ih =>
      obtain ⟨first, others⟩ := List.forall_mem_cons.mp plain
      cases rest with
      | nil =>
          simp only [cookieHeader, List.map_cons, List.map_nil, List.intercalate_singleton]
          exact first.part.1
      | cons next rest =>
          rw [cookieHeader_cons_cons]
          refine Tight.append _ (by simp [cookiePart]) ?_ first.part.1 (ih others)
          cases rest <;> simp [cookieHeader, cookiePart, List.intercalate_cons_cons]

/-- The parts of the header are read as the cookies of the name. -/
theorem readCookie_parts {cookie : Text × Text} {rest : List (Text × Text)}
    (plain : ∀ other ∈ cookie :: rest, Plain other) (name : Text)
    : (cookiePart cookie :: rest.map fun other => ' ' :: cookiePart other).filterMap
        (readCookie name)
      = (cookie :: rest).filterMap
          (fun other => if other.1 = name then some other.2 else none) := by
  obtain ⟨first, others⟩ := List.forall_mem_cons.mp plain
  rw [List.filterMap_cons, (first.readCookie name).1, List.filterMap_map, List.filterMap_cons]
  have read : rest.filterMap (readCookie name ∘ fun other => ' ' :: cookiePart other)
      = rest.filterMap (fun other => if other.1 = name then some other.2 else none) :=
    List.filterMap_congr fun other mem => ((others other mem).readCookie name).2
  rw [read]

/-- The first value of a name, by induction on the cookies. -/
theorem findSome?_named (cookies : List (Text × Text)) (name : Text)
    : cookies.findSome? (fun cookie => if cookie.1 = name then some cookie.2 else none)
      = (cookies.find? (fun cookie => cookie.1 = name)).map Prod.snd := by
  induction cookies with
  | nil => rfl
  | cons cookie rest ih =>
      by_cases same : cookie.1 = name
      · simp [same]
      · simp [same, ih]

/-- A browser's cookies come back as they are: the first one of a name is found. -/
theorem requestCookie_header {cookies : List (Text × Text)}
    (plain : ∀ cookie ∈ cookies, Plain cookie) (name : Text)
    : requestCookie [cookieHeader cookies] name
      = (cookies.find? (fun cookie => cookie.1 = name)).map Prod.snd := by
  rw [requestCookie, List.flatMap_singleton, (cookieHeader_tight plain).trimString]
  cases cookies with
  | nil => simp [cookieHeader, split, readCookie, cut, trimString, isToken]
  | cons cookie rest =>
      have parts : ∀ part ∈ cookiePart cookie :: rest.map fun other => ' ' :: cookiePart other,
          ';' ∉ part := by
        rw [List.forall_mem_cons, List.forall_mem_map]
        refine ⟨(plain cookie List.mem_cons_self).part.2, fun other mem => ?_⟩
        rw [List.mem_cons, not_or]
        exact ⟨by decide, (plain other (List.mem_cons_of_mem _ mem)).part.2⟩
      rw [cookieHeader_cons, split, List.splitOn_intercalate _ parts (by simp),
        readCookie_parts plain, List.head?_filterMap, findSome?_named]

end GoFire.Web
