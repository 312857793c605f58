import GnomeShellMobile.IconGrid.Layout
import Mathlib.Data.List.Nodup

/-!
# AppDisplay — the applications grid

The part of `FolderView` and `AppDisplay` of `js/ui/appDisplay.js` that finds out which folders and
applications there are to show: the settings of the folders, the `_loadApps` of a folder, and the
deletion of a folder. No application is in a folder twice (`FolderView.nodup_loadApps`).
-/

namespace AppDisplay

open Attempts IconGrid

inductive Icon (α φ : Type) where
  | app (id : α)
  | folder (id : φ)
deriving DecidableEq

/-- What the application system, the favourites, the parental controls and the locale answer.
Comparing names is consistent. -/
structure System (α φ : Type) where
  installed : List α
  isFavorite : α → Bool
  shouldShowApp : α → Bool
  lookupApp : α → Bool
  categories : α → List String
  isDefaultFolder : φ → Bool
  compareNames : Icon α φ → Icon α φ → ℤ
  installed_nodup : installed.Nodup
  compareNames_total : ∀ a b, compareNames a b ≤ 0 ∨ compareNames b a ≤ 0
  compareNames_trans : ∀ a b c, compareNames a b ≤ 0 → compareNames b c ≤ 0 → compareNames a c ≤ 0

structure FolderSettings (α φ : Type) where
  folderChildren : List φ
  apps : φ → List α
  excludedApps : φ → List α
  categories : φ → List String

variable {α φ : Type} [DecidableEq α] [DecidableEq φ]

/-! ## FolderView -/

def listsIntersect (a b : List String) : Bool := a.any fun itemA => b.contains itemA

namespace FolderView

def addAppId (sys : System α φ) (excludedApps apps : List α) (a : α) : List α :=
  if a ∈ excludedApps then apps
  else if sys.isFavorite a then apps
  else if sys.lookupApp a = false then apps
  else if sys.shouldShowApp a = false then apps
  else if a ∈ apps then apps
  else apps ++ [a]

/-- `_loadApps`, with the `getAppInfos` of the parent view. -/
def loadApps (sys : System α φ) (settings : FolderSettings α φ) (appInfos : List α) (f : φ) :
    List α :=
  let add := addAppId sys (settings.excludedApps f)
  let byCategory := appInfos.filter fun a =>
    listsIntersect (settings.categories f) (sys.categories a)
  byCategory.foldl add ((settings.apps f).foldl add [])

variable {sys : System α φ} {settings : FolderSettings α φ} {appInfos : List α} {f : φ}

omit [DecidableEq φ] in
theorem nodup_addAppId {excludedApps apps : List α} (h : apps.Nodup) (a : α) :
    (addAppId sys excludedApps apps a).Nodup := by
  rw [addAppId]
  repeat' split
  all_goals first
    | exact h
    | rename_i hnew
      rw [← List.concat_eq_append]
      exact h.concat hnew

omit [DecidableEq φ] in
/-- No application is in a folder twice. Induction on the ids that are added. -/
theorem nodup_foldl_addAppId (excludedApps : List α) (ids : List α) {apps : List α}
    (h : apps.Nodup) : (ids.foldl (addAppId sys excludedApps) apps).Nodup := by
  induction ids generalizing apps with
  | nil => exact h
  | cons a ids ih => exact ih (nodup_addAppId h a)

omit [DecidableEq φ] in
theorem nodup_loadApps : (loadApps sys settings appInfos f).Nodup :=
  nodup_foldl_addAppId _ _ (nodup_foldl_addAppId _ _ List.nodup_nil)

end FolderView

/-! ## AppDisplay -/

namespace Display

def loadAppInfos (sys : System α φ) : List α :=
  sys.installed.filter fun a => !sys.isFavorite a && sys.shouldShowApp a

/-- `deleteFolder`, without an app that is left. -/
def deleteFolder (sys : System α φ) (settings : FolderSettings α φ) (f : φ) :
    FolderSettings α φ :=
  -- "default folders get special treatment"
  if sys.isDefaultFolder f then settings
  else
    { folderChildren := Layout.spliceOut settings.folderChildren f
      apps := Function.update settings.apps f []
      excludedApps := Function.update settings.excludedApps f []
      categories := Function.update settings.categories f [] }

end Display

end AppDisplay
