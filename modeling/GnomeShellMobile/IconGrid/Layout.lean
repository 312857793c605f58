import Mathlib.Data.Int.Notation
import Mathlib.Logic.Function.Basic
import GnomeShellMobile.Attempts.Basic

/-!
# IconGrid — the pages of the layout manager

`IconGridLayout` of `js/ui/iconGrid.js`: `_pages` with the children of each page and the cached
list of the visible ones, and `_items`, which records the page of each item. Surplus items move to
the next page and, where incomplete pages are not allowed, vacant places are filled from it; the
methods that do so call each other, and take fuel here.

A method that throws leaves the layout as far as it got. A page number is `none` where the source has
-1.
-/

namespace IconGrid

open Attempts

structure Props (ι : Type) where
  allowIncompletePages : Bool
  columnsPerPage : ℕ
  rowsPerPage : ℕ
  visible : ι → Bool
  columns_pos : 1 ≤ columnsPerPage
  rows_pos : 1 ≤ rowsPerPage

def Props.HasHidden {ι : Type} (s : Props ι) : Prop := ∃ x, s.visible x = false

def Props.itemsPerPage {ι : Type} (s : Props ι) : ℕ := s.columnsPerPage * s.rowsPerPage

/-- An element of `_pages`. A new page has no `visibleChildren` until they are computed. -/
structure Page (ι : Type) where
  children : List ι
  visibleChildren : Option (List ι)
deriving DecidableEq

/-- `_pages`, and the `pageIndex` of each record in `_items`. -/
structure Layout (ι : Type) where
  pages : List (Page ι)
  items : ι → Option ℕ

abbrev PageRemoval (ι : Type) := Layout ι → ℕ → Attempt (Layout ι) (Layout ι)

variable {ι : Type} [DecidableEq ι]

def Props.setVisible (s : Props ι) (x : ι) (b : Bool) : Props ι :=
  { s with visible := Function.update s.visible x b }

/-- `rows_per_page` and `columns_per_page` of a grid mode, if there is one. -/
def Props.setMode (s : Props ι) : Option ({n : ℕ // 1 ≤ n} × {n : ℕ // 1 ≤ n}) → Props ι
  | none => s
  | some (rows, columns) =>
    { s with
      rowsPerPage := rows.1
      columnsPerPage := columns.1
      rows_pos := rows.2
      columns_pos := columns.2 }

namespace Layout

def empty : Layout ι := ⟨[], fun _ => none⟩

/-- `_pages[p].visibleChildren`, of which the length or the elements are read at once. -/
def visibleChildren (l : Layout ι) (p : ℕ) : Attempt (Layout ι) (List ι) :=
  match (l.pages[p]?).bind Page.visibleChildren with
  | none => .error (.thrown l)
  | some vs => .ok vs

def updateVisibleChildrenForPage (s : Props ι) (l : Layout ι) (p : ℕ) : Attempt (Layout ι) (Layout ι) :=
  match l.pages[p]? with
  | none => .error (.thrown l)
  | some page =>
    let vs := page.children.filter s.visible
    .ok { l with pages := l.pages.set p { page with visibleChildren := some vs } }

def unlinkItem (l : Layout ι) (x : ι) : Attempt (Layout ι) (Layout ι) :=
  match l.items x with
  | none => .error (.thrown l)
  | some _ => .ok { l with items := Function.update l.items x none }

def removePage : PageRemoval ι := fun l p =>
  match l.pages[p]? with
  | none => .error (.thrown l)
  | some page => do
    -- "Make sure to not leave any icon left here"
    let l ← page.children.foldlM unlinkItem l
    .ok ⟨l.pages.eraseIdx p, fun x => (l.items x).map fun q => if p < q then q - 1 else q⟩

def removeEmptyPage : PageRemoval ι := fun l p =>
  match l.pages[p]? with
  | none => .error (.thrown l)
  | some page => if page.children = [] then removePage l p else .error .forbidden

/-- `children.splice(children.indexOf(item), 1)`: index -1 is the last element. -/
def spliceOut (xs : List ι) (x : ι) : List ι := if x ∈ xs then xs.erase x else xs.dropLast

/-- Where `splice` starts: a negative index counts from the end. -/
def spliceStart (length : ℕ) (i : ℤ) : ℕ := if i < 0 then (length + i).toNat else i.toNat

/-- `children.splice(index, 0, item)`. -/
def spliceIn (xs : List ι) (i : ℤ) (x : ι) : List ι :=
  xs.take (spliceStart xs.length i) ++ x :: xs.drop (spliceStart xs.length i)

def setChildren (l : Layout ι) (p : ℕ) (page : Page ι) (xs : List ι) : Layout ι :=
  { l with pages := l.pages.set p { page with children := xs } }

def appendPage (l : Layout ι) : Layout ι := { l with pages := l.pages ++ [⟨[], none⟩] }

def setItem (l : Layout ι) (x : ι) (p : ℕ) : Layout ι :=
  { l with items := Function.update l.items x (some p) }

/-- The pages `_addItemToPage` appends. -/
def openPages (l : Layout ι) (pageIndex : Option ℕ) : Layout ι :=
  -- "Ensure we have at least one page"
  let l := if l.pages.length = 0 then l.appendPage else l
  -- "Append a new page if necessary"
  if pageIndex = some l.pages.length then l.appendPage else l

/-- `_addItemToPage` records the item and puts it among the children of page `p`. -/
def placeItem (s : Props ι) (l : Layout ι) (x : ι) (p : ℕ) (index : ℤ) :
    Attempt (Layout ι) (Layout ι) :=
  match l.pages[p]? with
  | none =>
    -- to append, the missing page is noticed before the item is recorded
    .error (.thrown (if index = -1 then l else l.setItem x p))
  | some page =>
    let i : ℤ := if index = -1 then page.children.length else index
    ((l.setItem x p).setChildren p page (spliceIn page.children i x)).updateVisibleChildrenForPage s p

def removeWithoutIcons (remove : PageRemoval ι) (l : Layout ι) (p : ℕ) (visibleItems : List ι) :
    Attempt (Layout ι) (Layout ι) :=
  if visibleItems.length = 0 then remove l p else .ok l

mutual

def fillItemVacancies (s : Props ι) (remove : PageRemoval ι) :
    ℕ → Layout ι → ℕ → Attempt (Layout ι) (Layout ι)
  | 0, l, _ => .error (.thrown l)
  | n + 1, l, p =>
    if l.pages.length - 1 ≤ p then .ok l
    else do
      let visiblePageItems ← l.visibleChildren p
      -- "No reduce needed"
      if visiblePageItems.length = s.itemsPerPage then .ok l
      else
        let visibleNextPageItems ← l.visibleChildren (p + 1)
        -- with more items than places the difference is negative and nothing moves
        let nMissingItems :=
          min (s.itemsPerPage - visiblePageItems.length) visibleNextPageItems.length
        (visibleNextPageItems.take nMissingItems).foldlM (fun l reducedItem => do
          let l ← removeItemData s remove n l reducedItem
          addItemToPage s remove n l reducedItem (some p) (-1)) l

def removeItemData (s : Props ι) (remove : PageRemoval ι) :
    ℕ → Layout ι → ι → Attempt (Layout ι) (Layout ι)
  | 0, l, _ => .error (.thrown l)
  | n + 1, l, x =>
    match l.items x with
    | none => .error (.thrown l)
    | some p =>
      match l.pages[p]? with
      | none => .error (.thrown l)
      | some page => do
        let l ← l.unlinkItem x
        let l ← (l.setChildren p page (spliceOut page.children x)).updateVisibleChildrenForPage s p
        let visibleItems ← l.visibleChildren p
        let l ← l.removeWithoutIcons remove p visibleItems
        if s.allowIncompletePages then .ok l else fillItemVacancies s remove n l p

def relocateSurplusItems (s : Props ι) (remove : PageRemoval ι) :
    ℕ → Layout ι → ℕ → Attempt (Layout ι) (Layout ι)
  | 0, l, _ => .error (.thrown l)
  | n + 1, l, p => do
    let visiblePageItems ← l.visibleChildren p
    -- "No overflow needed"
    if visiblePageItems.length ≤ s.itemsPerPage then .ok l
    else
      let nExtraItems := visiblePageItems.length - s.itemsPerPage
      (visiblePageItems.reverse.take nExtraItems).foldlM (fun l overflowItem => do
        let l ← removeItemData s remove n l overflowItem
        addItemToPage s remove n l overflowItem (some (p + 1)) 0) l

def addItemToPage (s : Props ι) (remove : PageRemoval ι) :
    ℕ → Layout ι → ι → Option ℕ → ℤ → Attempt (Layout ι) (Layout ι)
  | 0, l, _, _, _ => .error (.thrown l)
  | n + 1, l, x, pageIndex, index => do
    let l := l.openPages pageIndex
    let p := pageIndex.getD (l.pages.length - 1)
    let l ← l.placeItem s x p index
    relocateSurplusItems s remove n l p

end

/-- The loop of `updatePages`, over the pages there are and then over those added meanwhile. -/
def updatePagesFrom (s : Props ι) (remove : PageRemoval ι) (n : ℕ) :
    ℕ → Layout ι → ℕ → Attempt (Layout ι) (Layout ι)
  | 0, l, _ => .error (.thrown l)
  | rounds + 1, l, i =>
    if l.pages.length ≤ i then .ok l
    else do
      let l' ← (List.range' i (l.pages.length - i)).foldlM (relocateSurplusItems s remove n) l
      updatePagesFrom s remove n rounds l' l.pages.length

def updatePages (s : Props ι) (remove : PageRemoval ι) (n : ℕ) (l : Layout ι) :
    Attempt (Layout ι) (Layout ι) :=
  updatePagesFrom s remove n 3 l 0

/-- The loop of `_findBestPageToAppend` from page `i` on; `none` if it throws. -/
def findRoom (itemsPerPage length : ℕ) : ℕ → List (Page ι) → Option ℕ
  | _, [] => some length
  | i, page :: rest =>
    match page.visibleChildren with
    | none => none
    | some vs => if vs.length < itemsPerPage then some i else findRoom itemsPerPage length (i + 1) rest

def findBestPageToAppend (s : Props ι) (l : Layout ι) (startPage : ℕ) : Option ℕ :=
  findRoom s.itemsPerPage l.pages.length startPage (l.pages.drop startPage)

/-- The page that `addItem` and `moveItem` go on with; `none` if looking for it throws. -/
def choosePage (s : Props ι) (l : Layout ι) (page : Option ℕ) (index : ℤ) : Option (Option ℕ) :=
  match page with
  | none => some none
  | some p => if index = -1 then (l.findBestPageToAppend s p).map some else some (some p)

end Layout

structure State (ι : Type) where
  props : Props ι
  container : Option (List ι)
  layout : Layout ι

namespace State

def new (props : Props ι) (container : Option (List ι)) : State ι := ⟨props, container, .empty⟩

def setLayout (s : State ι) (l : Layout ι) : State ι := { s with layout := l }

def children (s : State ι) : List ι := s.container.getD []

/-- Enough for any chain of calls: each visits another page or leaves an item behind. -/
def fuel (s : State ι) : ℕ := 2 * (s.children.length + s.layout.pages.length) + 8

/-- `add_child`, which does nothing for an actor that already has a parent. -/
def addChild (s : State ι) (x : ι) : State ι :=
  { s with container := s.container.map fun cs => if x ∈ cs then cs else cs ++ [x] }

def removeChild (s : State ι) (x : ι) : State ι :=
  { s with container := s.container.map fun cs => cs.erase x }

/-- `page` exceeds the number of pages. -/
def Beyond (s : State ι) (page : Option ℕ) : Prop := ∃ p ∈ page, s.layout.pages.length < p
deriving Decidable

def addItem (remove : PageRemoval ι) (s : State ι) (x : ι) (page : Option ℕ) (index : ℤ) :
    Attempt (State ι) (State ι) :=
  if (s.layout.items x).isSome then .error (.thrown s)
  else if s.Beyond page then .error (.thrown s)
  else if s.container = none then .ok s
  else
    match s.layout.choosePage s.props page index with
    | none => .error (.thrown s)
    | some page =>
      let s := s.addChild x
      within s.setLayout (s.layout.addItemToPage s.props remove s.fuel x page index)

def appendItem (remove : PageRemoval ι) (s : State ι) (x : ι) : Attempt (State ι) (State ι) :=
  s.addItem remove x none (-1)

/-- What is left of `moveItem` once the data of the item were removed. -/
def putBack (remove : PageRemoval ι) (s : State ι) (x : ι) (newPage : Option ℕ) (newPosition : ℤ) :
    Attempt (State ι) (State ι) :=
  match s.layout.choosePage s.props newPage newPosition with
  | none => .error (.thrown s)
  | some page =>
    within s.setLayout (s.layout.addItemToPage s.props remove s.fuel x page newPosition)

def takeOut (remove : PageRemoval ι) (s : State ι) (x : ι) : Attempt (State ι) (State ι) :=
  within s.setLayout (s.layout.removeItemData s.props remove s.fuel x)

def moveItem (remove : PageRemoval ι) (s : State ι) (x : ι) (newPage : Option ℕ) (newPosition : ℤ) :
    Attempt (State ι) (State ι) :=
  if s.layout.items x = none then .error (.thrown s)
  else do
    let s ← s.takeOut remove x
    s.putBack remove x newPage newPosition

def removeItem (remove : PageRemoval ι) (s : State ι) (x : ι) : Attempt (State ι) (State ι) :=
  if s.layout.items x = none then .error (.thrown s)
  else if s.container = none then .ok s
  else (s.removeChild x).takeOut remove x

/-- The handler of `destroy`; the container loses the actor as well. -/
def destroyItem (remove : PageRemoval ι) (s : State ι) (x : ι) : Attempt (State ι) (State ι) :=
  if s.layout.items x = none then .ok (s.removeChild x)
  else (s.removeChild x).takeOut remove x

/-- The handler of `notify::visible`, which is connected as long as the item is recorded. -/
def onVisible (remove : PageRemoval ι) (s : State ι) (x : ι) (b : Bool) :
    Attempt (State ι) (State ι) :=
  match s.layout.items x with
  | none => .ok s
  | some p =>
    within s.setLayout <| do
      let l ← s.layout.updateVisibleChildrenForPage s.props p
      if b then l.relocateSurplusItems s.props remove s.fuel p
      else if s.props.allowIncompletePages then .ok l
      else l.fillItemVacancies s.props remove s.fuel p

def setVisible (remove : PageRemoval ι) (s : State ι) (x : ι) (b : Bool) :
    Attempt (State ι) (State ι) :=
  if s.props.visible x = b then .ok s
  else { s with props := s.props.setVisible x b }.onVisible remove x b

def setGridMode (remove : PageRemoval ι) (s : State ι)
    (mode : Option ({n : ℕ // 1 ≤ n} × {n : ℕ // 1 ≤ n})) : Attempt (State ι) (State ι) :=
  let s := { s with props := s.props.setMode mode }
  within s.setLayout (s.layout.updatePages s.props remove s.fuel)

end State

inductive Event (ι : Type) where
  | addItem (x : ι) (page : Option ℕ) (index : ℤ)
  | appendItem (x : ι)
  | moveItem (x : ι) (newPage : Option ℕ) (newPosition : ℤ)
  | removeItem (x : ι)
  | destroyItem (x : ι)
  | setVisible (x : ι) (b : Bool)
  | setGridMode (mode : Option ({n : ℕ // 1 ≤ n} × {n : ℕ // 1 ≤ n}))

namespace State

def perform (remove : PageRemoval ι) (s : State ι) : Event ι → Attempt (State ι) (State ι)
  | .addItem x page index => s.addItem remove x page index
  | .appendItem x => s.appendItem remove x
  | .moveItem x newPage newPosition => s.moveItem remove x newPage newPosition
  | .removeItem x => s.removeItem remove x
  | .destroyItem x => s.destroyItem remove x
  | .setVisible x b => s.setVisible remove x b
  | .setGridMode mode => s.setGridMode remove mode

end State

/-- Every event can come at any time, and what a method that throws has changed stays. -/
def step (s : State ι) (e : Event ι) : Option (State ι) :=
  match s.perform Layout.removePage e with
  | .ok t => some t
  | .error (.thrown t) => some t
  | .error .forbidden => none

end IconGrid
