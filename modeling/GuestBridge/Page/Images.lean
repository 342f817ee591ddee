import GuestBridge.Page.Guest

/-!
# Images and tasks of a page

An image is loaded by an element of the page and decoded by drawing it onto a scratch canvas. The
task of a load does so in two polls, with the image's own loading between them, and then hands
the result to its bridge, if that still exists.
-/

set_option autoImplicit false

namespace GuestBridge.Page

/-- Fails with a message if the page refuses a call. -/
def permitted (call : String) : Attempt String Page Unit := do
  let p ← .get
  match p.script.refusal? call with
  | some thrown => .fail thrown.message
  | none => return ()

/-- The id under which a scratch canvas is known. -/
def scratchId : String := "scratch"

/-- Creates an image and has it load from an address; answers its place among the page's images.
What the page has there at this moment is what will load. -/
def createImage (url : String) : Attempt String Page Nat := do
  permitted "new Image"
  .state fun p =>
    let image := p.images.length
    let p := p.did (.crossOrigin "anonymous")
    let p := p.did (.onload true)
    let p := p.did (.onerror true)
    let p := p.did (.src url)
    let size := (p.script.images.lookup url).map fun i => (i.width, i.height)
    (image, { p with images := p.images ++ [{ size }] })

/-- Creates a canvas to draw an image on. -/
def createScratch (width height : UInt32) : Attempt String Page Unit := do
  permitted "createElement"
  .modify (did (.createElement "canvas"))
  let p ← .get
  if (p.script.refusal? "createElement other").isSome then .fail "scratch element is not a canvas"
  else
    .modify (resizeCanvas scratchId width height)
    .modify (did (.getContext scratchId "2d"))
    match contextFault? "2d context unavailable" "unexpected 2d context type"
        p.script.imageContext with
    | some reason => .fail reason
    | none => return ()

/-- Reads the pixels of a loaded image of the given size back, as the page has them by now; an
image without any extent has none. -/
def decodeImage (url : String) (width height : UInt32) : Attempt String Page DecodedImage := do
  if width = 0 || height = 0 then return ⟨width, height, []⟩
  else
    createScratch width height
    permitted "drawImage"
    .modify (did (.drawImage url 0 0))
    permitted "getImageData"
    .modify (did (.getImageData 0 0 width height))
    let p ← .get
    return ⟨width, height, ((p.script.images.lookup url).map (·.pixels)).getD []⟩

/-- Hands the result of a load to its bridge. -/
def finishLoad (inner : Performer) (l : ImageLoad) (result : Except FetchError DecodedImage)
    (p : Page) : Page :=
  if p.isAlive l.owner then (platform inner l.owner).complete l.fetch result p else p

/-- What comes of an image that has loaded with a size, or has not. -/
def imageResult (url : String) : Option (UInt32 × UInt32) → Attempt FetchError Page DecodedImage
  | some (width, height) => (decodeImage url width height).mapError (.decode url)
  | none => .fail (.load url "the image could not be loaded")

/-- Takes the handlers off an image. -/
def removeHandlers (p : Page) : Page := (p.did (.onload false)).did (.onerror false)

/-- Polls a load. Answers how it goes on waiting, unless it has ended. -/
def pollLoad (inner : Performer) (l : ImageLoad) (p : Page) : Option ImageLoad × Page :=
  let url := l.fetch.request.url
  match l.stage with
  | .fresh =>
    match createImage url p with
    | (.ok image, p) => (some { l with stage := .waiting image }, p)
    | (.error reason, p) => (none, finishLoad inner l (.error (.load url reason)) p)
  | .waiting image =>
    match (p.images[image]?).filter (·.settled) with
    | none => (some l, p)
    | some i =>
      let (result, p) := imageResult url i.size p.removeHandlers
      (none, finishLoad inner l result p)

/-- Polls each load once, in order. Answers those that still wait, and whether any one ended. -/
def pollEach (inner : Performer) : List ImageLoad → Page → List ImageLoad × Bool × Page
  | [], p => ([], false, p)
  | l :: rest, p =>
    let (next, p) := pollLoad inner l p
    let (waiting, ended, p) := pollEach inner rest p
    match next with
    | some l => (l :: waiting, ended, p)
    | none => (waiting, true, p)

/-- Polls all loads, over and over until a round ends none of them. -/
def runTasksFor (inner : Performer) : Nat → Page → Page
  | 0, p => p
  | n + 1, p =>
    let (waiting, ended, p) := pollEach inner p.loads { p with loads := [] }
    let p := { p with loads := waiting ++ p.loads }
    if ended then runTasksFor inner n p else p

def runTasks (inner : Performer) (p : Page) : Page := runTasksFor inner (p.work + 1) p

/-- Lets all images that there are load, or fail to. -/
def settleImages (p : Page) : Page :=
  { p with images := p.images.map fun i => { i with settled := true } }

/-- Runs the oldest timer; answers whether there was one. -/
def runTimer (inner : Performer) (p : Page) : Bool × Page :=
  match p.timers with
  | [] => (false, p)
  | t :: rest =>
    let p := { p with timers := rest }
    (true, if p.isAlive t.owner then (platform inner t.owner).deliver t.completion p else p)

/-- Runs tasks, images and timers in turn until there is no timer. -/
def runAllFor (inner : Performer) : Nat → Page → Page
  | 0, p => p
  | n + 1, p =>
    let p := runTasks inner (runTasks inner p).settleImages
    match runTimer inner p with
    | (true, p) => runAllFor inner n p
    | (false, p) => p

def runAll (inner : Performer) (p : Page) : Page := runAllFor inner (p.work + 1) p

end GuestBridge.Page
