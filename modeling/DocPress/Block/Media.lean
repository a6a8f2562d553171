import DocPress.Block.Title

/-!
# Images, audio and video

Blocks that show something from another address, with a player for video.
-/

namespace DocPress.Block

set_option autoImplicit false

/-- The part of a recording to play, as the fragment of its address. -/
def timeFragment (d : NodeData) : String :=
  match d.attr? "start", d.attr? "end" with
  | none, none => ""
  | start, stop =>
    "#t=" ++ start.getD "" ++ match stop with
      | some stop => "," ++ stop
      | none => ""

def isRem (value : String) : Bool := "rem".toList.isSuffixOf value.toList

def dimensions (d : NodeData) : List Attr :=
  let given := [(AttrName.width, "width"), (AttrName.height, "height")].filterMap fun p =>
    (d.attr? p.2).map fun value => (p.1, value)
  let style := (given.filter fun p => isRem p.2).map fun p => p.1.spelling ++ ": " ++ p.2 ++ ";"
  (given.filter fun p => !isRem p.2).map (fun p => attr p.1 p.2) ++
    if style.isEmpty then [] else [attr .style (" ".intercalate style)]

/-- The classes of a block that can float and be aligned. -/
def placedAttrs (d : NodeData) (base : String) : List Attr :=
  ((ClassList.base base).push? (d.attr? "float")
    |>.push? ((d.attr? "align").map ("text-" ++ ·))
    |>.push? d.role?).attrs

def audio (s : Scene) (n : Node) : Rendered Markup := do
  let title ← titleLine s n false
  let src := s.imageUri (n.target.getD "") ++ timeFragment n.data
  let attrs := attr .src src :: (optFlag .autoplay (n.hasOption "autoplay") ++
    optFlag .controls (!n.hasOption "nocontrols") ++ optFlag .loop (n.hasOption "loop"))
  return .stack .div (n.data.idAttrs ++ n.data.classAttrs "audio")
    (title ++ [contentBox
      [.stack .audio attrs [[.text "Your browser does not support the audio tag."]]]])

def image (s : Scene) (n : Node) : Rendered Markup := do
  let picture ← Inline.picture s n.data (dimensions n.data)
  let title ← titleLine s n true
  return .stack .div (n.data.idAttrs ++ placedAttrs n.data "imageblock")
    (contentBox [Inline.linked n.data picture] :: title)

/-- The names of the options that are set, each followed by `=1`. -/
def switches (d : NodeData) (names : List String) : List String :=
  (names.filter d.hasOption).map (· ++ "=1")

def fullscreen (d : NodeData) : List Attr := optFlag .allowfullscreen (!d.hasOption "nofullscreen")

/-- A frame for an outside player; the scheme of its address is written as it is set. -/
def playerFrame (s : Scene) (d : NodeData) (size : List Attr) (address : String) : Markup :=
  [.element .iframe
    (size ++ .value .src [.raw s.assetScheme, .escaped address] :: attr .frameborder "0" ::
      fullscreen d) []]

/-- The address of a Vimeo player; the target may hold a hash behind a slash. -/
def vimeoAddress (d : NodeData) : String :=
  let target := d.target.getD ""
  let (video, hash) := match Text.cutAt '/' target with
    | some (video, hash) => (video, some hash)
    | none => (target, d.attr? "hash")
  let params := (hash.map ("h=" ++ ·)).toList ++ switches d ["autoplay", "loop", "muted"]
  let query := if params.isEmpty then "" else "?" ++ "&".intercalate params
  let start := match d.attr? "start" with
    | some start => "#at=" ++ start
    | none => ""
  "//player.vimeo.com/video/" ++ video ++ query ++ start

/-- The video of a YouTube target, and the parameters for its list or playlist. -/
def youtubeVideo (d : NodeData) : String × List String :=
  let target := d.target.getD ""
  let (video, list) := match Text.cutAt '/' target with
    | some (video, list) => (video, some list)
    | none => (target, d.attr? "list")
  match list with
  | some list => (video, ["list=" ++ list])
  | none =>
    let (video, playlist) := match Text.cutAt ',' video with
      | some (video, playlist) => (video, some playlist)
      | none => (video, d.attr? "playlist")
    match playlist with
    | some playlist => (video, ["playlist=" ++ video ++ "," ++ playlist])
    | none => (video, if d.hasOption "loop" then ["playlist=" ++ video] else [])

def youtubeAddress (d : NodeData) : String :=
  let given (param name : String) : List String := ((d.attr? name).map (param ++ "=" ++ ·)).toList
  let option (name param : String) : List String := if d.hasOption name then [param] else []
  let (video, lists) := youtubeVideo d
  let params :=
    ["rel=" ++ if d.hasOption "related" then "1" else "0"] ++
    given "start" "start" ++ given "end" "end" ++
    switches d ["autoplay", "loop"] ++ option "muted" "mute=1" ++
    option "nocontrols" "controls=0" ++ lists ++ option "nofullscreen" "fs=0" ++
    option "modest" "modestbranding=1" ++ given "theme" "theme" ++ given "hl" "lang"
  "//www.youtube.com/embed/" ++ video ++ "?" ++ "&".intercalate params

/-- A player of the browser. -/
def videoElement (s : Scene) (d : NodeData) (size : List Attr) : Markup :=
  let src := s.imageUri (d.target.getD "") ++ timeFragment d
  let poster := ((d.attr? "poster").filter (· ≠ "")).map s.imageUri
  .stack .video
    (attr .src src :: (size ++ optAttr .poster poster ++
      optFlag .autoplay (d.hasOption "autoplay") ++ optFlag .controls (!d.hasOption "nocontrols") ++
      optFlag .loop (d.hasOption "loop") ++ optFlag .muted (d.hasOption "muted") ++
      optAttr .preload ((d.attr? "preload").filter (· ≠ ""))))
    [[.text "Your browser does not support the video tag."]]

def video (s : Scene) (n : Node) : Rendered Markup := do
  let title ← titleLine s n false
  let size := optAttr .width (n.attr? "width") ++ optAttr .height (n.attr? "height")
  let player := match n.attr? "poster" with
    | some "vimeo" => playerFrame s n.data size (vimeoAddress n.data)
    | some "youtube" => playerFrame s n.data size (youtubeAddress n.data)
    | _ => videoElement s n.data size
  return .stack .div (n.data.idAttrs ++ placedAttrs n.data "videoblock")
    (title ++ [contentBox [player]])

end DocPress.Block
