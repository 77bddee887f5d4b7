/-
What can go wrong, by its cause, and how it is told.

* `OsError`: a file operation that failed; `ImageFault`: an image that cannot be decoded;
  `ConfigFault`: a configuration that cannot be used;
* `Failure`: any of these, and what else ends a piece of work; `Failure.message` tells it.
-/
import ImageMigration.Path

namespace ImageMigration

/-- Why an operation on a file failed. -/
inductive OsError where
  | notFound
  | permissionDenied
  | alreadyExists
  | notDirectory
  | isDirectory
  | tooManyLinks
  /-- the contents are no text -/
  | notText
  deriving DecidableEq, Inhabited

/-- How a failed operation is told. -/
def OsError.message : OsError → Text
  | notFound => "No such file or directory (os error 2)".toList
  | permissionDenied => "Permission denied (os error 13)".toList
  | alreadyExists => "File exists (os error 17)".toList
  | notDirectory => "Not a directory (os error 20)".toList
  | isDirectory => "Is a directory (os error 21)".toList
  | tooManyLinks => "Too many levels of symbolic links (os error 40)".toList
  | notText => "stream did not contain valid UTF-8".toList

/-- Why an image cannot be decoded. -/
inductive ImageFault where
  | unreadable (e : OsError)
  | truncated
  | pngSignature
  | jpegStart
  /-- the image is sound, but nothing here can encode it -/
  | noEncoder
  deriving DecidableEq, Inhabited

/-- How an undecodable image is told. -/
def ImageFault.message : ImageFault → Text
  | unreadable e => e.message
  | truncated => "unexpected end of file".toList
  | pngSignature => "Format error decoding Png: Invalid PNG signature.".toList
  | jpegStart =>
    "Format error decoding Jpeg: invalid JPEG format: first two bytes are not an SOI marker".toList
  | noEncoder => "The encoder is not available".toList

/-- Why a configuration cannot be used. -/
inductive ConfigFault where
  | quality
  | unopened (e : OsError)
  | unparsed
  | uncreated (e : OsError)
  | logFile (path : Path) (e : OsError)
  deriving DecidableEq, Inhabited

/-- How an unusable configuration is told. -/
def ConfigFault.message : ConfigFault → Text
  | quality => "Quality must be between 0 and 100".toList
  | unopened e => "Failed to open config file: ".toList ++ e.message
  | unparsed => "Failed to parse config file".toList
  | uncreated e => "Failed to create config file: ".toList ++ e.message
  | logFile path e => "log file ".toList ++ path.text ++ ": ".toList ++ e.message

/-- What ends a piece of work. -/
inductive Failure where
  | io (e : OsError)
  | image (fault : ImageFault)
  | fileNotFound (path : Path)
  | configuration (fault : ConfigFault)
  | parse (path : Path)
  | unknown (message : Text)
  deriving DecidableEq, Inhabited

/-- How a failure is told. -/
def Failure.message : Failure → Text
  | io e => "I/O error: ".toList ++ e.message
  | image fault => "Image processing error: ".toList ++ fault.message
  | fileNotFound path => "File not found: ".toList ++ path.text
  | configuration fault => "Invalid configuration: ".toList ++ fault.message
  | parse path => "Failed to parse ".toList ++ path.text
  | unknown message => "Unknown error: ".toList ++ message

end ImageMigration
