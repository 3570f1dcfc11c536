import BuildServer.Material.Url
import Mathlib.Data.List.TakeWhile
/-!
# Credentials in URLs

A URL that is shown, or that is kept without its password, is a text again, and may be taken apart
again. What is found then is settled by one statement: a text has credentials exactly if it is written
from parts that can be told apart, and they are those parts (`credentials?_eq_some_iff`). The search for
the at sign is the only step at which two readings could differ. It takes the last one before the first
slash, so no at sign is left in that place in what follows it, and a text that is put together without
user and password has none.

To mask a password, or to drop it, is therefore to write the same parts with another password, or with
none, and what is said here of the three forms needs no search any more.
-/

set_option autoImplicit false

namespace BuildServer.RepositoryUrl

variable {cs before after rest user : List Char}

/-! ## Schemes -/

/-- The name of a scheme: a letter, and then letters, digits, plus signs, points and hyphens. -/
def IsSchemeName : List Char → Prop
  | [] => False
  | c :: cs => c.isAlpha = true ∧ ∀ d ∈ cs, isSchemeChar d = true

theorem IsSchemeName.isSchemeChar {name : List Char} (h : IsSchemeName name) :
    ∀ c ∈ name, isSchemeChar c = true := by
  cases name with
  | nil => exact h.elim
  | cons c cs =>
    intro d hd
    rcases List.mem_cons.mp hd with rfl | hmore
    · simp [RepositoryUrl.isSchemeChar, Char.isAlphanum, h.1]
    · exact h.2 d hmore

/-- A scheme is its name with a colon and two slashes. -/
def IsScheme (scheme : List Char) : Prop :=
  ∃ name, IsSchemeName name ∧ scheme = name ++ [':', '/', '/']

/-- A scheme ends where its name does. -/
theorem splitScheme?_append {name : List Char} (h : IsSchemeName name) (rest : List Char) :
    splitScheme? (name ++ [':', '/', '/'] ++ rest) = some (name ++ [':', '/', '/'], rest) := by
  have colon : ¬ isSchemeChar ':' = true := by decide
  have taken : (name ++ [':', '/', '/'] ++ rest).takeWhile isSchemeChar = name := by
    rw [List.append_assoc, List.takeWhile_append_of_pos h.isSchemeChar]
    simp [colon]
  have left : (name ++ [':', '/', '/'] ++ rest).dropWhile isSchemeChar = ':' :: '/' :: '/' :: rest := by
    rw [List.append_assoc, List.dropWhile_append_of_pos h.isSchemeChar]
    simp [colon]
  unfold splitScheme?
  rw [taken, left]
  cases name with
  | nil => exact h.elim
  | cons c cs => simp [h.1]

theorem of_splitScheme? {scheme : List Char} (h : splitScheme? cs = some (scheme, rest)) :
    cs = scheme ++ rest ∧ ∃ name, IsSchemeName name ∧ scheme = name ++ [':', '/', '/'] := by
  have joined : cs.takeWhile isSchemeChar ++ cs.dropWhile isSchemeChar = cs :=
    List.takeWhile_append_dropWhile
  have scanned : ∀ d ∈ cs.takeWhile isSchemeChar, isSchemeChar d = true :=
    fun d hd => List.mem_takeWhile_imp hd
  unfold splitScheme? at h
  dsimp only at h
  split at h
  case h_1 c name behind htaken hleft =>
    rw [htaken] at joined scanned
    rw [hleft] at joined
    split at h
    case isTrue letter =>
      rw [htaken, Option.some.injEq, Prod.mk.injEq] at h
      obtain ⟨rfl, rfl⟩ := h
      refine ⟨?_, c :: name, ⟨letter, fun d hd => scanned d (List.mem_cons_of_mem _ hd)⟩, rfl⟩
      rw [← joined]
      simp
    case isFalse => cases h
  case h_2 => cases h

/-! ## The at sign -/

/-- No at sign stands before the first slash. -/
def NoAtSign (cs : List Char) : Prop := '@' ∉ cs.takeWhile (· != '/')

instance (cs : List Char) : Decidable (NoAtSign cs) :=
  inferInstanceAs (Decidable ('@' ∉ cs.takeWhile (· != '/')))

theorem splitAtSign?_eq_none : splitAtSign? cs = none ↔ NoAtSign cs := by
  induction cs with
  | nil => simp [splitAtSign?, NoAtSign]
  | cons c cs ih =>
    unfold splitAtSign?
    unfold NoAtSign at ih ⊢
    by_cases slash : c = '/'
    · simp [slash]
    · rcases found : splitAtSign? cs with _ | ⟨before, after⟩
      · have absent := ih.mp found
        by_cases sign : c = '@'
        · simp [sign]
        · simp [slash, sign, absent, Ne.symm sign]
      · have present := mt ih.mpr (by simp [found])
        simp only [not_not] at present
        simp [slash, present]

/-- The text is split at the last at sign before the first slash. -/
theorem splitAtSign?_append (slashless : '/' ∉ before) (last : NoAtSign after) :
    splitAtSign? (before ++ '@' :: after) = some (before, after) := by
  induction before with
  | nil => simp [splitAtSign?, splitAtSign?_eq_none.mpr last]
  | cons c before ih =>
    rw [List.mem_cons, not_or] at slashless
    rw [List.cons_append, splitAtSign?, if_neg (Ne.symm slashless.1), ih slashless.2]

theorem of_splitAtSign? (h : splitAtSign? cs = some (before, after)) :
    cs = before ++ '@' :: after ∧ '/' ∉ before ∧ NoAtSign after := by
  induction cs generalizing before with
  | nil => cases h
  | cons c cs ih =>
    unfold splitAtSign? at h
    by_cases slash : c = '/'
    · simp [slash] at h
    rcases found : splitAtSign? cs with _ | ⟨before', after'⟩
    · rw [if_neg slash, found] at h
      by_cases sign : c = '@'
      · simp only [sign, if_true, Option.some.injEq, Prod.mk.injEq] at h
        obtain ⟨rfl, rfl⟩ := h
        exact ⟨by rw [sign]; rfl, List.not_mem_nil, splitAtSign?_eq_none.mp found⟩
      · simp [sign] at h
    · -- an at sign further on is preferred to this character, whether that is one or not
      simp only [if_neg slash, found, Option.some.injEq, Prod.mk.injEq] at h
      obtain ⟨rfl, rfl⟩ := h
      obtain ⟨hcs, slashless, last⟩ := ih found
      refine ⟨by rw [hcs]; rfl, ?_, last⟩
      rw [List.mem_cons, not_or]
      exact ⟨Ne.symm slash, slashless⟩

/-! ## User and password -/

/-- The user, and the password behind a colon. -/
def userInfo (user : List Char) : Option (List Char) → List Char
  | none => user
  | some password => user ++ ':' :: password

/-- The user ends at the first colon. -/
theorem splitUserInfo_userInfo (colonless : ':' ∉ user) (password : Option (List Char)) :
    splitUserInfo (userInfo user password) = (user, password) := by
  have passes : ∀ c ∈ user, (c != ':') = true := by
    intro c hc
    rw [bne_iff_ne]
    rintro rfl
    exact colonless hc
  unfold splitUserInfo
  cases password with
  | none =>
    rw [userInfo, List.takeWhile_eq_self_iff.mpr passes, List.dropWhile_eq_nil_iff.mpr passes]
  | some password =>
    rw [userInfo, List.takeWhile_append_of_pos passes, List.dropWhile_append_of_pos passes]
    simp

theorem userInfo_splitUserInfo (cs : List Char) :
    userInfo (splitUserInfo cs).1 (splitUserInfo cs).2 = cs := by
  have joined : cs.takeWhile (· != ':') ++ cs.dropWhile (· != ':') = cs :=
    List.takeWhile_append_dropWhile
  unfold splitUserInfo
  rcases left : cs.dropWhile (· != ':') with _ | ⟨c, password⟩
  · rw [left, List.append_nil] at joined
    exact joined
  · have colon : c = ':' := by
      have first := List.head_dropWhile_not (p := (· != ':')) (l := cs) (by simp [left])
      simpa [left] using first
    rw [left, colon] at joined
    exact joined

theorem colon_notMem_splitUserInfo (cs : List Char) : ':' ∉ (splitUserInfo cs).1 := by
  have user : (splitUserInfo cs).1 = cs.takeWhile (· != ':') := by
    unfold splitUserInfo
    split <;> rfl
  intro h
  rw [user] at h
  simpa using List.mem_takeWhile_imp h

/-! ## URLs with credentials -/

namespace Credentials

/-- The URL with the credentials, put together from its parts. -/
def text (c : Credentials) : List Char := c.scheme ++ userInfo c.user c.password ++ '@' :: c.rest

/-- The parts can be told apart when they are put together. -/
structure Separate (c : Credentials) : Prop where
  scheme : ∃ name, IsSchemeName name ∧ c.scheme = name ++ [':', '/', '/']
  user : ':' ∉ c.user
  userInfo : '/' ∉ userInfo c.user c.password
  rest : NoAtSign c.rest

/-- The same parts with the mark in place of the password, if there is a password. -/
def masked (c : Credentials) : Credentials := { c with password := c.password.map fun _ => mask }

/-- The same parts without the password. -/
def userOnly (c : Credentials) : Credentials := { c with password := none }

variable {c : Credentials}

theorem Separate.masked (h : c.Separate) : c.masked.Separate := by
  refine ⟨h.scheme, h.user, ?_, h.rest⟩
  have slashless := h.userInfo
  have noSlash : '/' ∉ mask := by decide
  rcases c with ⟨scheme, user, password | _, rest⟩
  all_goals simp_all [Credentials.masked, RepositoryUrl.userInfo]

theorem Separate.userOnly (h : c.Separate) : c.userOnly.Separate := by
  refine ⟨h.scheme, h.user, ?_, h.rest⟩
  have slashless := h.userInfo
  rcases c with ⟨scheme, user, password | _, rest⟩
  all_goals simp_all [Credentials.userOnly, RepositoryUrl.userInfo]

end Credentials

variable {c : Credentials}

theorem credentials?_text (h : c.Separate) :
    credentials? c.text = if '\n' ∈ c.rest then none else some c := by
  obtain ⟨name, hname, hscheme⟩ := h.scheme
  have scheme : splitScheme? c.text = some (c.scheme, userInfo c.user c.password ++ '@' :: c.rest) := by
    rw [Credentials.text, List.append_assoc, hscheme]
    exact splitScheme?_append hname _
  unfold credentials?
  simp only [scheme, splitAtSign?_append h.userInfo h.rest, splitUserInfo_userInfo h.user,
    Option.bind_eq_bind, Option.bind_some, List.contains_eq_mem, decide_eq_true_eq]

/-- Reading finds the credentials exactly where they are written, in front of a rest without a line
feed. -/
theorem credentials?_eq_some_iff :
    credentials? cs = some c ↔ c.Separate ∧ '\n' ∉ c.rest ∧ cs = c.text := by
  constructor
  · intro h
    unfold credentials? at h
    simp only [Option.bind_eq_bind, Option.bind_eq_some_iff] at h
    obtain ⟨⟨scheme, behind⟩, hscheme, ⟨info, rest⟩, hsign, h⟩ := h
    dsimp only at hsign
    obtain ⟨hcs, named⟩ := of_splitScheme? hscheme
    obtain ⟨hbehind, slashless, last⟩ := of_splitAtSign? hsign
    by_cases feed : '\n' ∈ rest
    · simp [feed] at h
    · simp only [List.contains_eq_mem, feed, decide_false, Bool.false_eq_true, if_false,
        Option.some.injEq] at h
      subst h
      have whole : userInfo (splitUserInfo info).1 (splitUserInfo info).2 = info :=
        userInfo_splitUserInfo info
      refine ⟨⟨named, colon_notMem_splitUserInfo info, ?_, last⟩, feed, ?_⟩
      · rwa [whole]
      · rw [Credentials.text, whole, hcs, hbehind, List.append_assoc]
  · rintro ⟨separate, noFeed, rfl⟩
    rw [credentials?_text separate, if_neg noFeed]

/-- A text without an at sign in the place for one has no credentials. -/
theorem credentials?_eq_none {scheme : List Char} (named : IsScheme scheme) (noSign : NoAtSign rest) :
    credentials? (scheme ++ rest) = none := by
  obtain ⟨name, hname, rfl⟩ := named
  unfold credentials?
  rw [splitScheme?_append hname]
  simp [splitAtSign?_eq_none.mpr noSign]

/-- What follows a scheme begins with a login: a text without a slash and an at sign behind it, which is
the last one before the first slash. No line feed comes later. -/
def HasLogin (cs : List Char) : Prop :=
  ∃ login rest, '/' ∉ login ∧ NoAtSign rest ∧ '\n' ∉ rest ∧ cs = login ++ '@' :: rest

/-- A login is read as user and password, whatever it is. -/
theorem credentials?_login {scheme login : List Char} (named : IsScheme scheme)
    (slashless : '/' ∉ login) (last : NoAtSign rest) (noFeed : '\n' ∉ rest) :
    credentials? (scheme ++ (login ++ '@' :: rest))
      = some ⟨scheme, (splitUserInfo login).1, (splitUserInfo login).2, rest⟩ := by
  have whole : userInfo (splitUserInfo login).1 (splitUserInfo login).2 = login :=
    userInfo_splitUserInfo login
  refine credentials?_eq_some_iff.mpr ⟨⟨named, colon_notMem_splitUserInfo login, ?_, last⟩, noFeed, ?_⟩
  · rwa [whole]
  · rw [Credentials.text, whole, List.append_assoc]

/-- Behind a scheme there are credentials exactly if there is a login. -/
theorem credentials?_scheme_append {scheme : List Char} (named : IsScheme scheme) :
    credentials? (scheme ++ cs) = none ↔ ¬ HasLogin cs := by
  constructor
  · rintro notFound ⟨login, rest, slashless, last, noFeed, rfl⟩
    rw [credentials?_login named slashless last noFeed] at notFound
    cases notFound
  · intro noLogin
    rw [Option.eq_none_iff_forall_ne_some]
    intro c found
    obtain ⟨separate, noFeed, htext⟩ := credentials?_eq_some_iff.mp found
    obtain ⟨name, hname, rfl⟩ := named
    obtain ⟨name', hname', hscheme⟩ := separate.scheme
    -- a text has one scheme, so it is the one of the credentials
    have sameScheme := splitScheme?_append hname cs
    rw [htext, Credentials.text, List.append_assoc, hscheme, splitScheme?_append hname',
      Option.some.injEq, Prod.mk.injEq] at sameScheme
    exact noLogin ⟨_, c.rest, separate.userInfo, separate.rest, noFeed, sameScheme.2.symm⟩

/-! ## The three forms

Each of them is the text of other parts, or a text without credentials, and so is what is found in
it. -/

section Forms

variable (h : credentials? cs = some c)

include h

theorem maskPassword_eq : maskPassword cs = c.masked.text := by
  obtain ⟨_, _, rfl⟩ := credentials?_eq_some_iff.mp h
  unfold maskPassword
  rw [h]
  rcases c with ⟨scheme, user, password | _, rest⟩
  all_goals simp [Credentials.masked, Credentials.text, userInfo]

theorem dropCredentials_eq : dropCredentials cs = c.scheme ++ c.rest := by
  rw [dropCredentials, h]

theorem dropPassword_eq :
    dropPassword cs = if c.user = [] then c.scheme ++ c.rest else c.userOnly.text := by
  unfold dropPassword
  rw [h]
  simp [Credentials.userOnly, Credentials.text, userInfo]

end Forms

section Plain

variable (h : credentials? cs = none)

include h

theorem maskPassword_plain : maskPassword cs = cs := by rw [maskPassword, h]

theorem dropCredentials_plain : dropCredentials cs = cs := by rw [dropCredentials, h]

theorem dropPassword_plain : dropPassword cs = cs := by rw [dropPassword, h]

end Plain

theorem credentials?_maskPassword (cs : List Char) :
    credentials? (maskPassword cs) = (credentials? cs).map Credentials.masked := by
  rcases h : credentials? cs with _ | c
  · rw [maskPassword_plain h, h, Option.map_none]
  · obtain ⟨separate, noFeed, _⟩ := credentials?_eq_some_iff.mp h
    rw [maskPassword_eq h, Option.map_some, credentials?_eq_some_iff]
    exact ⟨separate.masked, noFeed, rfl⟩

theorem credentials?_dropCredentials (cs : List Char) : credentials? (dropCredentials cs) = none := by
  rcases h : credentials? cs with _ | c
  · rw [dropCredentials_plain h, h]
  · obtain ⟨separate, _, _⟩ := credentials?_eq_some_iff.mp h
    rw [dropCredentials_eq h]
    exact credentials?_eq_none separate.scheme separate.rest

/-- A user who is named stays, and an empty one is dropped with the at sign. -/
theorem credentials?_dropPassword (cs : List Char) :
    credentials? (dropPassword cs)
      = ((credentials? cs).filter (!·.user.isEmpty)).map Credentials.userOnly := by
  rcases h : credentials? cs with _ | c
  · rw [dropPassword_plain h, h, Option.filter_none, Option.map_none]
  · obtain ⟨separate, noFeed, _⟩ := credentials?_eq_some_iff.mp h
    rw [dropPassword_eq h]
    by_cases nobody : c.user = []
    · rw [if_pos nobody, credentials?_eq_none separate.scheme separate.rest]
      simp [Option.filter_some, nobody]
    · rw [if_neg nobody, credentials?_eq_some_iff.mpr ⟨separate.userOnly, noFeed, rfl⟩]
      simp [Option.filter_some, nobody]

/-! ## Forms of forms -/

/-- Dropping the password leaves nothing to find if no user is named, and else the user alone. -/
theorem credentials?_dropPassword_of_some (h : credentials? cs = some c) :
    credentials? (dropPassword cs) = if c.user = [] then none else some c.userOnly := by
  rw [credentials?_dropPassword, h]
  by_cases nobody : c.user = [] <;> simp [Option.filter_some, nobody]

theorem maskPassword_maskPassword (cs : List Char) :
    maskPassword (maskPassword cs) = maskPassword cs := by
  rcases h : credentials? cs with _ | c
  · rw [maskPassword_plain h, maskPassword_plain h]
  · have found : credentials? (maskPassword cs) = some c.masked := by
      rw [credentials?_maskPassword, h, Option.map_some]
    have again : c.masked.masked = c.masked := by
      rcases c with ⟨scheme, user, password | _, rest⟩ <;> rfl
    rw [maskPassword_eq found, again, maskPassword_eq h]

theorem dropCredentials_dropCredentials (cs : List Char) :
    dropCredentials (dropCredentials cs) = dropCredentials cs :=
  dropCredentials_plain (credentials?_dropCredentials cs)

theorem dropPassword_dropPassword (cs : List Char) :
    dropPassword (dropPassword cs) = dropPassword cs := by
  rcases h : credentials? cs with _ | c
  · rw [dropPassword_plain h, dropPassword_plain h]
  · have found := credentials?_dropPassword_of_some h
    by_cases nobody : c.user = []
    · rw [if_pos nobody] at found
      exact dropPassword_plain found
    · rw [if_neg nobody] at found
      have named : c.userOnly.user ≠ [] := nobody
      rw [dropPassword_eq found, if_neg named, dropPassword_eq h, if_neg nobody]
      rfl

/-- The password has no part in the URL without credentials. -/
theorem dropCredentials_maskPassword (cs : List Char) :
    dropCredentials (maskPassword cs) = dropCredentials cs := by
  rcases h : credentials? cs with _ | c
  · rw [maskPassword_plain h]
  · have found : credentials? (maskPassword cs) = some c.masked := by
      rw [credentials?_maskPassword, h, Option.map_some]
    rw [dropCredentials_eq found, dropCredentials_eq h]
    rfl

theorem dropCredentials_dropPassword (cs : List Char) :
    dropCredentials (dropPassword cs) = dropCredentials cs := by
  rcases h : credentials? cs with _ | c
  · rw [dropPassword_plain h]
  · have found := credentials?_dropPassword_of_some h
    by_cases nobody : c.user = []
    · rw [if_pos nobody] at found
      rw [dropCredentials_plain found, dropPassword_eq h, if_pos nobody, dropCredentials_eq h]
    · rw [if_neg nobody] at found
      rw [dropCredentials_eq found, dropCredentials_eq h]
      rfl

/-- Where there is no password any more, there is nothing to mask. -/
theorem maskPassword_dropPassword (cs : List Char) :
    maskPassword (dropPassword cs) = dropPassword cs := by
  rcases h : credentials? cs with _ | c
  · rw [dropPassword_plain h, maskPassword_plain h]
  · have found := credentials?_dropPassword_of_some h
    by_cases nobody : c.user = []
    · rw [if_pos nobody] at found
      exact maskPassword_plain found
    · rw [if_neg nobody] at found
      rw [maskPassword_eq found, dropPassword_eq h, if_neg nobody]
      rfl

/-- No credentials are found in the URL, and each of its forms is the URL itself. -/
structure Plain (url : RepositoryUrl) : Prop where
  notFound : credentials? url.configured.toList = none
  forDisplay : url.forDisplay = url.configured
  withoutCredentials : url.withoutCredentials = url.configured
  withoutPassword : url.withoutPassword = url.configured

theorem plain_iff {url : RepositoryUrl} : url.Plain ↔ credentials? url.configured.toList = none := by
  constructor
  · exact fun plain => plain.notFound
  · intro notFound
    refine ⟨notFound, ?_, ?_, ?_⟩
    · rw [forDisplay, maskPassword_plain notFound, String.ofList_toList]
    · rw [withoutCredentials, dropCredentials_plain notFound, String.ofList_toList]
    · rw [withoutPassword, dropPassword_plain notFound, String.ofList_toList]

/-- Every form of a URL is settled: to form it again changes nothing. The password can be masked or
dropped before the credentials are, and a URL without its password has none to mask. A URL without
credentials is plain, and one without its password is so exactly if it names no user. -/
theorem forms_settle (url : RepositoryUrl) :
    let shown : RepositoryUrl := ⟨url.forDisplay⟩
    let bare : RepositoryUrl := ⟨url.withoutCredentials⟩
    let userOnly : RepositoryUrl := ⟨url.withoutPassword⟩
    (shown.forDisplay = url.forDisplay ∧ bare.withoutCredentials = url.withoutCredentials ∧
        userOnly.withoutPassword = url.withoutPassword) ∧
      (shown.withoutCredentials = url.withoutCredentials ∧
        userOnly.withoutCredentials = url.withoutCredentials) ∧
      userOnly.forDisplay = url.withoutPassword ∧
      bare.Plain ∧
      (userOnly.Plain ↔ ∀ c, credentials? url.configured.toList = some c → c.user = []) := by
  intro shown bare userOnly
  have shownChars : shown.configured.toList = maskPassword url.configured.toList :=
    String.toList_ofList
  have bareChars : bare.configured.toList = dropCredentials url.configured.toList :=
    String.toList_ofList
  have userOnlyChars : userOnly.configured.toList = dropPassword url.configured.toList :=
    String.toList_ofList
  -- Each clause is one equation between two rewritings of the characters.
  refine ⟨⟨?_, ?_, ?_⟩, ⟨?_, ?_⟩, ?_, ?_, ?_⟩
  · rw [forDisplay, shownChars, maskPassword_maskPassword, forDisplay]
  · rw [withoutCredentials, bareChars, dropCredentials_dropCredentials, withoutCredentials]
  · rw [withoutPassword, userOnlyChars, dropPassword_dropPassword, withoutPassword]
  · rw [withoutCredentials, shownChars, dropCredentials_maskPassword, withoutCredentials]
  · rw [withoutCredentials, userOnlyChars, dropCredentials_dropPassword, withoutCredentials]
  · rw [forDisplay, userOnlyChars, maskPassword_dropPassword, withoutPassword]
  · rw [plain_iff, bareChars]
    exact credentials?_dropCredentials _
  · rw [plain_iff, userOnlyChars]
    rcases h : credentials? url.configured.toList with _ | c
    · simp [dropPassword_plain h, h]
    · simp [credentials?_dropPassword_of_some h]

/-- A password without a user is dropped with its at sign, and the at signs that it holds. -/
theorem nameless_url_plain :
    let url : RepositoryUrl := ⟨"https://:p@ss@host/path@ref"⟩
    url.withoutPassword = "https://host/path@ref" ∧ Plain ⟨url.withoutPassword⟩ := by
  intro url
  have nobody : (credentials? url.configured.toList).map (·.user) = some [] := by decide +kernel
  obtain ⟨_, _, _, _, plain⟩ := forms_settle url
  refine ⟨by decide +kernel, plain.mpr ?_⟩
  intro c found
  rw [found, Option.map_some, Option.some.injEq] at nobody
  exact nobody

end BuildServer.RepositoryUrl
