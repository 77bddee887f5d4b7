/-
Which files of a project matter, by their names.

* `ImageFormat.ofExtension?`, `ImageFormat.ofPath?`: the formats that are converted;
* `isReservedName`: names by which frameworks pick up icons and previews without any reference.
  Such an image is no candidate, because nothing in the code would show that it is used;
* `Path.isImage`, `Path.isCode`: the two kinds of files;
* `RawPath.isImage`, `RawPath.isCode`: the same for paths whose bytes may be no text.
-/
import ImageMigration.Path
import ImageMigration.Text.Utf8

namespace ImageMigration

/-- The formats that are converted. -/
inductive ImageFormat where
  | jpeg
  | png
  deriving DecidableEq, Inhabited

/-- The format of an extension, in any letter case. -/
def ImageFormat.ofExtension? (extension : Text) : Option ImageFormat :=
  let lower := extension.map Char.toLower
  if lower = "jpg".toList ∨ lower = "jpeg".toList then some jpeg
  else if lower = "png".toList then some png
  else none

/-- The format of a file by the extension of its name. -/
def ImageFormat.ofName? (name : Text) : Option ImageFormat :=
  (Path.splitName name).2.bind ofExtension?

/-- The format of a path by its file name. -/
def ImageFormat.ofPath? (p : Path) : Option ImageFormat := p.fileName?.bind ofName?

/-! ### Reserved names -/

/-- The lower-case letter that a character stands for when case does not matter. The long s and the
sign of the kelvin are case variants of letters, too. -/
def foldCase (c : Char) : Char :=
  if c = '\u017f' then 's' else if c = '\u212a' then 'k' else c.toLower

/-- How reserved names begin. -/
def reservedBeginnings : List Text :=
  ["favicon".toList, "apple-icon".toList, "apple-touch-icon".toList, "icon".toList,
   "opengraph-image".toList, "twitter-image".toList, "android-chrome-".toList, "mstile-".toList,
   "web-app-manifest-".toList]

/-- How reserved names end. -/
def reservedEndings : List Text :=
  [".png".toList, ".jpg".toList, ".jpeg".toList, ".ico".toList]

/-- Whether what follows the beginning of a reserved name is one line with a reserved ending. -/
def hasReservedEnding (t : Text) : Bool :=
  reservedEndings.any fun ending =>
    ending.isSuffixOf t && !(t.take (t.length - ending.length)).contains '\n'

/-- Whether a name is reserved by a framework. -/
def isReservedName (name : Text) : Bool :=
  let folded := name.map foldCase
  reservedBeginnings.any fun beginning =>
    beginning.isPrefixOf folded && hasReservedEnding (folded.drop beginning.length)

/-! ### Kinds of files -/

/-- Whether a file of this name is an image to be converted. -/
def isImageName (name : Text) : Bool :=
  (ImageFormat.ofName? name).isSome && !isReservedName name

/-- The extensions of source files. -/
def codeExtensions : List Text := ["js".toList, "jsx".toList, "ts".toList, "tsx".toList]

/-- Whether an extension is that of a source file. -/
def isCodeExtension (extension : Text) : Bool := codeExtensions.contains extension

/-- Whether a file of this name is a source file. -/
def isCodeName (name : Text) : Bool := (Path.splitName name).2.any isCodeExtension

/-- Whether a path is that of an image to be converted. -/
def Path.isImage (p : Path) : Bool :=
  (ImageFormat.ofPath? p).isSome && p.fileName?.any fun name => !isReservedName name

/-- The file name alone decides that. -/
theorem Path.isImage_eq (p : Path) : p.isImage = p.fileName?.any isImageName := by
  rw [isImage, ImageFormat.ofPath?]
  cases p.fileName? with
  | none => rfl
  | some name => rfl

/-- Whether a path is that of a source file. -/
def Path.isCode (p : Path) : Bool := p.fileName?.any isCodeName

/-! ### Paths that may be no text -/

/-- The bytes of a path. -/
abbrev RawPath := List UInt8

namespace RawPath

/-- The pieces between separators. -/
def split (sep : UInt8) : RawPath → List RawPath
  | [] => [[]]
  | b :: rest =>
    if b = sep then [] :: split sep rest
    else match split sep rest with
      | [] => [[b]]
      | piece :: pieces => (b :: piece) :: pieces

/-- The last name of a path; `.` and empty names are passed over. -/
def fileName? (p : RawPath) : Option RawPath :=
  match (split 0x2F p).reverse.dropWhile fun n => n == [] || n == [0x2E] with
  | [] => none
  | name :: _ => if name == [0x2E, 0x2E] then none else some name

/-- What stands behind the last point of a name that does not start with it. -/
def extension? (name : RawPath) : Option RawPath :=
  match (split 0x2E name).reverse with
  | _ :: [[]] => none
  | extension :: _ :: _ => some extension
  | _ => none

/-- The text that bytes are. -/
def text? (b : RawPath) : Option Text := Text.ofUtf8? ⟨b.toArray⟩

/-- Whether a path is that of an image to be converted. A name that is no text is none. -/
def isImage (p : RawPath) : Bool := (p.fileName?.bind text?).any isImageName

/-- Whether a path is that of a source file. Only the extension needs to be text. -/
def isCode (p : RawPath) : Bool :=
  (p.fileName?.bind fun name => (extension? name).bind text?).any isCodeExtension

end RawPath

end ImageMigration
