import MusicLibrary.Record.Track
import MusicLibrary.SortKey
import MusicLibrary.Track.Basic

/-! Tracks from the records of a library file. What a track is sorted by comes from the sort texts
of the file where it has them, else from the texts that are shown. -/

namespace MusicLibrary.Track

/-- The sort key of the first text that is set, if it is not empty. -/
def sortKey (key : String → String) (explicit shown : Option String) : Option String :=
  ((explicit <|> shown).map key).filter (! ·.isEmpty)

/-- The track with all its sort keys made anew. A genre has no sort text of its own. -/
def normalizeSortKeys (track : Track) : Track :=
  { track with
    sortAlbum := sortKey SortKey.ofText track.sortAlbum track.album
    sortAlbumArtist := sortKey SortKey.ofArtist track.sortAlbumArtist track.albumArtist
    sortArtist := sortKey SortKey.ofArtist track.sortArtist track.artist
    sortComposer := sortKey SortKey.ofText track.sortComposer track.composer
    sortGenre := sortKey SortKey.ofText none track.genre
    sortName := sortKey SortKey.ofText track.sortName track.name }

def isAudiobookFile (location : String) : Bool :=
  ".m4b".toList.isSuffixOf (location.toList.map Char.toLower)

/-- The media kind by the flags of a record; music may be an audiobook by its file. -/
def mediaKindOf (record : TrackRecord) : MediaKind :=
  let kind := MediaKind.ofFlags (record.movie.getD false) (record.podcast.getD false)
    (record.tvShow.getD false) (record.musicVideo.getD false)
  if kind = .music ∧ record.location.any isAudiobookFile then .audiobook else kind

/-- The track of a record. Without a release date it is released at the end of its year. -/
def ofRecord (id : PersistentId) (record : TrackRecord) : Track :=
  normalizeSortKeys {
    id
    album := record.album
    albumArtist := record.albumArtist
    albumRating := record.albumRating
    artist := record.artist
    bitrate := record.bitRate
    bpm := record.bpm
    comments := record.comments
    compilation := record.compilation
    composer := record.composer
    dateAdded := record.dateAdded
    dateModified := record.dateModified
    discCount := record.discCount
    discNumber := record.discNumber
    gapless := record.partOfGaplessAlbum
    genre := record.genre
    grouping := record.grouping
    kind := record.kind
    location := record.location.filter (! ·.isEmpty)
    loved := record.loved
    mediaKind := some (mediaKindOf record)
    movementCount := record.movementCount
    movementName := record.movementName
    movementNumber := record.movementNumber
    name := record.name
    playCount := record.playCount
    playDate := record.playDate
    purchaseDate := record.purchaseDate
    purchased := record.purchased
    rating := record.rating
    releaseDate := record.releaseDate <|> record.year.bind Timestamp.endOfYear?
    sampleRate := record.sampleRate
    size := record.size
    skipCount := record.skipCount
    skipDate := record.skipDate
    sortAlbum := record.sortAlbum
    sortAlbumArtist := record.sortAlbumArtist
    sortArtist := record.sortArtist
    sortComposer := record.sortComposer
    sortName := record.sortName
    totalTime := record.totalTime
    trackCount := record.trackCount
    trackNumber := record.trackNumber
    volumeAdjustment := record.volumeAdjustment
    work := record.work
    year := record.year }

@[simp] theorem id_ofRecord (id : PersistentId) (record : TrackRecord) :
    (ofRecord id record).id = id := rfl

end MusicLibrary.Track
