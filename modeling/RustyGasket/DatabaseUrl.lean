import Mathlib.Data.List.Infix
import Mathlib.Data.List.TakeWhile
import Mathlib.Logic.Function.Basic

/-!
# Redacting a connection URL

`redact_url_userinfo` cuts at the first `@` of the authority, so what a user name
or a password has from an `@` of its own on is kept. A Rust string stands here by
its characters; the delimiters are ASCII, so positions in bytes cut the same way.
-/

namespace RustyGasket.Database

/-- `str::find` with a string. -/
def find (pattern : List Char) : List Char → Option Nat
  | [] => if pattern.isPrefixOf [] then some 0 else none
  | c :: rest =>
    if pattern.isPrefixOf (c :: rest) then some 0 else (find pattern rest).map (· + 1)

/-- `str::find` with a character. -/
def findChar (c : Char) (text : List Char) : Option Nat := text.findIdx? (· = c)

def schemeSeparator : List Char := [':', '/', '/']

def mask : List Char := ['*', '*', '*']

def redactUrlUserinfo (url : List Char) : List Char :=
  match find schemeSeparator url with
  | none => url
  | some schemeEnd =>
    let afterScheme := schemeEnd + schemeSeparator.length
    let rest := url.drop afterScheme
    let pathStart := (findChar '/' rest).getD rest.length
    let authority := rest.take pathStart
    match findChar '@' authority with
    | some position => url.take afterScheme ++ mask ++ rest.drop position
    | none => url

inductive DatabaseBackend
  | Auto
  | Postgres
  | MySql
  deriving DecidableEq, Repr

def DatabaseBackend.debug : DatabaseBackend → List Char
  | Auto => "Auto".toList
  | Postgres => "Postgres".toList
  | MySql => "MySql".toList

/-- The fields that `Debug` shows. -/
structure DatabaseConfig where
  url : List Char
  backend : DatabaseBackend
  maxConnections : Nat
  minConnections : Nat
  runMigrations : Bool

/-- `f.debug_struct(..)`, on one line, with `url` in the field of that name; `quote` is
the `Debug` of a string. -/
def DatabaseConfig.debugStruct (quote : List Char → List Char) (config : DatabaseConfig)
    (url : List Char) : List Char :=
  "DatabaseConfig \x7b url: ".toList ++ quote url ++
    (", backend: ".toList ++ config.backend.debug ++
      ", max_connections: ".toList ++ (toString config.maxConnections).toList ++
      ", min_connections: ".toList ++ (toString config.minConnections).toList ++
      ", run_migrations: ".toList ++ (toString config.runMigrations).toList ++ " \x7d".toList)

def DatabaseConfig.debug (quote : List Char → List Char) (config : DatabaseConfig) : List Char :=
  config.debugStruct quote (redactUrlUserinfo config.url)

/-! ## Searching -/

/-- The separator overlaps no shifted copy of itself, so after a text without it the
first one is found where it was put. -/
theorem find_schemeSeparator {scheme : List Char} (plain : ¬ schemeSeparator <:+: scheme)
    (rest : List Char) : find schemeSeparator (scheme ++ (schemeSeparator ++ rest)) =
      some scheme.length := by
  induction scheme with
  | nil => rfl
  | cons c scheme ih =>
    have later : ¬ schemeSeparator <:+: scheme := by
      intro inside
      exact plain (inside.trans (List.suffix_cons c scheme).isInfix)
    have here : schemeSeparator.isPrefixOf (c :: (scheme ++ (schemeSeparator ++ rest))) = false := by
      rw [Bool.eq_false_iff, ne_eq, List.isPrefixOf_iff_prefix]
      match scheme with
      | [] => simp [schemeSeparator]
      | [d] => simp [schemeSeparator]
      | d :: e :: scheme =>
        intro front
        apply plain
        simp only [schemeSeparator, List.cons_append, List.cons_prefix_cons] at front
        obtain ⟨rfl, rfl, rfl, -⟩ := front
        exact ⟨[], scheme, rfl⟩
    rw [List.cons_append, find, here, ih later]
    rfl

theorem take_findChar (c : Char) (text : List Char) :
    text.take ((findChar c text).getD text.length) = text.takeWhile (· ≠ c) := by
  rw [findChar, ← List.findIdx_eq_getD_findIdx?, List.takeWhile_eq_take_findIdx_not]
  simp

theorem drop_findChar {c : Char} {text : List Char} {position : Nat}
    (found : findChar c text = some position) : text.drop position = text.dropWhile (· ≠ c) := by
  have same : text.findIdx (· = c) = position := by
    rw [List.findIdx_eq_getD_findIdx?]
    rw [findChar] at found
    rw [found]
    rfl
  rw [List.dropWhile_eq_drop_findIdx_not, ← same]
  simp

theorem findChar_eq_none {c : Char} {text : List Char} : findChar c text = none ↔ c ∉ text := by
  rw [findChar, List.findIdx?_eq_none_iff]
  constructor
  · intro absent member
    simpa using absent c member
  · intro absent d member
    simp only [decide_eq_false_iff_not]
    rintro rfl
    exact absent member

theorem findChar_append {c : Char} {text : List Char} {position : Nat}
    (found : findChar c text = some position) (rest : List Char) :
    findChar c (text ++ rest) = some position := by
  rw [findChar] at found
  rw [findChar, List.findIdx?_append, found]
  rfl

/-! ## The parts of a URL -/

/-- What stands before the first `://`. -/
structure Scheme where
  text : List Char
  plain : ¬ schemeSeparator <:+: text

/-- Anything without a slash, as a user name and a password may be. -/
structure Userinfo where
  text : List Char
  noSlash : '/' ∉ text

/-- Authority, path and query without userinfo of their own. -/
structure Remainder where
  text : List Char
  noAt : '@' ∉ text.takeWhile (· ≠ '/')

def urlWithout (scheme : Scheme) (host : Remainder) : List Char :=
  scheme.text ++ (schemeSeparator ++ host.text)

def urlWith (scheme : Scheme) (userinfo : Userinfo) (host : Remainder) : List Char :=
  scheme.text ++ (schemeSeparator ++ (userinfo.text ++ '@' :: host.text))

/-- The URL with none of its userinfo left. -/
def maskedUrl (scheme : Scheme) (host : Remainder) : List Char :=
  scheme.text ++ (schemeSeparator ++ (mask ++ '@' :: host.text))

/-- What follows the userinfo's own first `@`, that one included. -/
def Userinfo.fromAt (userinfo : Userinfo) : List Char := userinfo.text.dropWhile (· ≠ '@')

/-- After the scheme, what is cut ends at the first `@` before the first slash. -/
theorem redact_after_scheme (scheme : Scheme) (rest : List Char) :
    redactUrlUserinfo (scheme.text ++ (schemeSeparator ++ rest)) =
      if '@' ∈ rest.takeWhile (· ≠ '/') then
        scheme.text ++ schemeSeparator ++ mask ++ rest.dropWhile (· ≠ '@')
      else scheme.text ++ (schemeSeparator ++ rest) := by
  have cut : (scheme.text ++ (schemeSeparator ++ rest)).drop
      (scheme.text.length + schemeSeparator.length) = rest := by
    rw [← List.append_assoc, ← List.length_append, List.drop_left]
  have kept : (scheme.text ++ (schemeSeparator ++ rest)).take
      (scheme.text.length + schemeSeparator.length) = scheme.text ++ schemeSeparator := by
    rw [← List.append_assoc, ← List.length_append, List.take_left]
  simp only [redactUrlUserinfo, find_schemeSeparator scheme.plain, cut, kept, take_findChar]
  cases found : findChar '@' (rest.takeWhile (· ≠ '/')) with
  | none => rw [if_neg (findChar_eq_none.mp found)]
  | some position =>
    have inAuthority : '@' ∈ rest.takeWhile (· ≠ '/') := by
      by_contra absent
      rw [findChar_eq_none.mpr absent] at found
      cases found
    have first := findChar_append found (rest.dropWhile (· ≠ '/'))
    rw [List.takeWhile_append_dropWhile] at first
    rw [if_pos inAuthority]
    simp only [drop_findChar first]

theorem redact_urlWithout (scheme : Scheme) (host : Remainder) :
    redactUrlUserinfo (urlWithout scheme host) = urlWithout scheme host := by
  rw [urlWithout, redact_after_scheme, if_neg host.noAt]

/-- **What is shown of a URL with userinfo.** -/
theorem redact_urlWith (scheme : Scheme) (userinfo : Userinfo) (host : Remainder) :
    redactUrlUserinfo (urlWith scheme userinfo host) =
      scheme.text ++ schemeSeparator ++ mask ++ (userinfo.fromAt ++ '@' :: host.text) := by
  have noSlash : ∀ c ∈ userinfo.text, decide (c ≠ '/') = true := by
    intro c member
    simp only [decide_eq_true_eq]
    rintro rfl
    exact userinfo.noSlash member
  have inAuthority : '@' ∈ (userinfo.text ++ '@' :: host.text).takeWhile (· ≠ '/') := by
    rw [List.takeWhile_append_of_pos noSlash]
    simp
  rw [urlWith, redact_after_scheme, if_pos inAuthority, List.dropWhile_append]
  congr 1
  rw [← Userinfo.fromAt]
  split
  · rename_i nothing
    rw [List.isEmpty_iff.mp nothing]
    simp
  · rfl

theorem redact_eq_masked_iff (scheme : Scheme) (host : Remainder) (userinfo : Userinfo) :
    redactUrlUserinfo (urlWith scheme userinfo host) = maskedUrl scheme host ↔
      '@' ∉ userinfo.text := by
  have shown : maskedUrl scheme host =
      scheme.text ++ schemeSeparator ++ mask ++ ([] ++ '@' :: host.text) := by
    simp only [maskedUrl, List.append_assoc, List.nil_append]
  rw [redact_urlWith, shown, List.append_cancel_left_eq, List.append_cancel_right_eq,
    Userinfo.fromAt, List.dropWhile_eq_nil_iff]
  constructor
  · intro plain inside
    simpa using plain '@' inside
  · intro absent c inside
    simp only [decide_eq_true_eq]
    rintro rfl
    exact absent inside

theorem debugStruct_eq_iff {quote : List Char → List Char} (injective : Function.Injective quote)
    (config : DatabaseConfig) (url url' : List Char) :
    config.debugStruct quote url = config.debugStruct quote url' ↔ url = url' := by
  unfold DatabaseConfig.debugStruct
  -- what stands before and after the URL is the same in both
  generalize "DatabaseConfig \x7b url: ".toList = before
  generalize ", backend: ".toList ++ config.backend.debug ++ _ ++ _ ++ _ ++ _ ++ _ ++ _ ++ _ = after
  rw [List.append_left_inj, List.append_right_inj, injective.eq_iff]

/-- **Redaction hides a userinfo exactly when it has no `@`.** A URL without userinfo is
left as it is. Of one with a userinfo the masked URL is shown, by itself and in the
`Debug` of the configuration, if and only if the userinfo has no `@`; and two URLs that
differ in the userinfo both show nothing of it, and so the same, if and only if neither
userinfo has one. -/
theorem redaction_hides_iff (scheme : Scheme) (host : Remainder) (userinfo userinfo' : Userinfo) :
    redactUrlUserinfo (urlWithout scheme host) = urlWithout scheme host ∧
    (redactUrlUserinfo (urlWith scheme userinfo host) = maskedUrl scheme host ↔
      '@' ∉ userinfo.text) ∧
    (redactUrlUserinfo (urlWith scheme userinfo host) =
          redactUrlUserinfo (urlWith scheme userinfo' host) ∧
        redactUrlUserinfo (urlWith scheme userinfo host) = maskedUrl scheme host ↔
      '@' ∉ userinfo.text ∧ '@' ∉ userinfo'.text) ∧
    ∀ (quote : List Char → List Char), Function.Injective quote → ∀ config : DatabaseConfig,
      ({ config with url := urlWith scheme userinfo host }.debug quote =
          config.debugStruct quote (maskedUrl scheme host) ↔
        '@' ∉ userinfo.text) := by
  have hides := redact_eq_masked_iff scheme host userinfo
  have hides' := redact_eq_masked_iff scheme host userinfo'
  refine ⟨redact_urlWithout scheme host, hides, ?_, ?_⟩
  · constructor
    · rintro ⟨same, masked⟩
      exact ⟨hides.mp masked, hides'.mp (same.symm.trans masked)⟩
    · rintro ⟨plain, plain'⟩
      exact ⟨(hides.mpr plain).trans (hides'.mpr plain').symm, hides.mpr plain⟩
  · intro quote injective config
    rw [← hides]
    exact debugStruct_eq_iff injective config _ _

/-- Of a password that contains an `@` the part behind it is shown. -/
theorem password_shown :
    redactUrlUserinfo "postgres://app:p@ss@db/app".toList = "postgres://***@ss@db/app".toList ∧
    redactUrlUserinfo "postgres://app:word@db/app".toList = "postgres://***@db/app".toList ∧
    redactUrlUserinfo "postgres://app:p@ss@db/app".toList ≠
      redactUrlUserinfo "postgres://app:word@db/app".toList := by
  refine ⟨rfl, rfl, ?_⟩
  decide

end RustyGasket.Database
