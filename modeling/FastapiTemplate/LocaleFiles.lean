import FastapiTemplate.PosixPaths
import FastapiTemplate.Totp

/-!
# Locale files

`I18nMiddleware` takes the locale from the `Accept-Language` header, and `load_translations` makes
the path of a file out of it. Which files exist is a parameter. Nothing keeps the text of the
header from leaving the directory of the translations.
-/

namespace FastapiTemplate.Locales

open Posix

def firstPart (sep : Char) (text : String) : String :=
  String.ofList (text.toList.takeWhile (· ≠ sep))

def dispatchLocale (defaultLocale : String) (acceptLanguage : Option String) : String :=
  match acceptLanguage.filter (· ≠ "") with
  | none => defaultLocale
  | some header => strip (firstPart ';' (firstPart ',' header))

/-- The files, with what `json.load` makes of them, and the working directory. -/
structure FileSystem (α : Type) where
  getcwd : Directory
  exists? : List Char → Bool
  load : List Char → Option α

section files
variable {α : Type} (fs : FileSystem α)

def localeDirPath : List Char := join fs.getcwd.path "api/locales".toList

def filePath (locale : String) : List Char := join (localeDirPath fs) (locale ++ ".json").toList

/-- The translations, the path that was opened for them, and the cache afterwards. -/
structure Loaded (α : Type) where
  translations : Option α
  opened : Option (List Char)
  cache : String → Option α

/-- `load_translations`; `none` stands for `{}`. -/
def loadTranslations (cache : String → Option α) (locale : String) : Loaded α :=
  match cache locale with
  | some data => ⟨some data, none, cache⟩
  | none =>
    let path :=
      if !fs.exists? (filePath fs locale) && locale.toList.contains '-' then
        filePath fs (firstPart '-' locale)
      else filePath fs locale
    if !fs.exists? path then ⟨none, none, cache⟩
    else match fs.load path with
      | some data => ⟨some data, some path, Function.update cache locale (some data)⟩
      | none => ⟨none, some path, cache⟩

/-! ## The directory of the translations -/

def localeNames : List Segment := ["api".toList, "locales".toList]

theorem localeNames_isName : ∀ s ∈ localeNames, IsName s := by
  intro s hs
  rcases List.mem_cons.mp hs with rfl | hs
  · exact ⟨by decide, by decide, by decide, by decide⟩
  · rw [List.mem_singleton.mp hs]
    exact ⟨by decide, by decide, by decide, by decide⟩

def localeDir : Directory := fs.getcwd.enter localeNames localeNames_isName

theorem localeDirPath_eq : localeDirPath fs = (localeDir fs).path :=
  join_enter fs.getcwd localeNames_isName (List.cons_ne_nil _ _)

theorem inside_filePath_iff (locale : String) : Inside (localeDir fs) (filePath fs locale) ↔
    Stays (localeDir fs) (locale ++ ".json").toList := by
  rw [filePath, localeDirPath_eq]
  exact inside_join_iff _ _

/-! ## Confinement -/

/-- The name that is looked up for the locale: its part before the first hyphen where the file of
the locale is missing. -/
def lookedUp (locale : String) : String :=
  if fs.exists? (filePath fs locale) = false ∧ '-' ∈ locale.toList then firstPart '-' locale
  else locale

/-- Where a file is looked up and exists, the text that names it stays in the directory. -/
def StaysInLocales (cache : String → Option α) (locale : String) : Prop :=
  cache locale = none → fs.exists? (filePath fs (lookedUp fs locale)) = true →
    Stays (localeDir fs) (lookedUp fs locale ++ ".json").toList

theorem opened_eq (cache : String → Option α) (locale : String) :
    (loadTranslations fs cache locale).opened =
      if cache locale = none ∧ fs.exists? (filePath fs (lookedUp fs locale)) = true then
        some (filePath fs (lookedUp fs locale)) else none := by
  have hpath : (if !fs.exists? (filePath fs locale) && locale.toList.contains '-' then
      filePath fs (firstPart '-' locale) else filePath fs locale) =
        filePath fs (lookedUp fs locale) := by
    unfold lookedUp
    split_ifs <;> simp_all
  unfold loadTranslations
  cases cache locale with
  | some data => simp
  | none =>
    simp only [hpath]
    cases fs.exists? (filePath fs (lookedUp fs locale)) with
    | false => rfl
    | true => cases fs.load (filePath fs (lookedUp fs locale)) <;> rfl

/-- The file that is opened for a header lies in the directory exactly if the text that names it
stays there. -/
theorem loadTranslations_inside_iff (cache : String → Option α) (defaultLocale : String)
    (acceptLanguage : Option String) :
    (∀ path ∈ (loadTranslations fs cache (dispatchLocale defaultLocale acceptLanguage)).opened,
      Inside (localeDir fs) path) ↔
      StaysInLocales fs cache (dispatchLocale defaultLocale acceptLanguage) := by
  rw [opened_eq, StaysInLocales, ← inside_filePath_iff]
  split_ifs with hopened
  · simp [hopened.1, hopened.2]
  · simp only [Option.mem_def, reduceCtorEq, false_imp_iff, implies_true, true_iff]
    exact fun hnone hexists => absurd ⟨hnone, hexists⟩ hopened

end files

def besideApi : FileSystem Unit where
  getcwd := ⟨["srv".toList], fun s hs => by
    rw [List.mem_singleton.mp hs]
    exact ⟨by decide, by decide, by decide, by decide⟩⟩
  exists? path := path = "/srv/api/locales/../../package.json".toList
  load _ := some ()

theorem loadTranslations_not_inside :
    let locale := dispatchLocale "en" (some "../../package, en;q=0.9")
    let path := "/srv/api/locales/../../package.json".toList
    (loadTranslations besideApi (fun _ => none) locale).opened = some path ∧
      normalise path = ["srv".toList, "package.json".toList] ∧
      ¬ Inside (localeDir besideApi) path := by
  decide +kernel

end FastapiTemplate.Locales
