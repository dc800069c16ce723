/-!
Labels of icon components: what a control with the icon does, in several languages, and names for
icons that only say what they show.
-/

namespace JsxAudit.Label

/-- What controls with an icon do, in English. -/
def actionLabels : List (String × String) := [
  ("CartIcon", "Add to cart"),
  ("HeartIcon", "Add to favorites"),
  ("ShareIcon", "Share"),
  ("TrashIcon", "Delete"),
  ("DeleteIcon", "Delete"),
  ("XIcon", "Close"),
  ("CloseIcon", "Close"),
  ("MenuIcon", "Menu"),
  ("HamburgerIcon", "Menu"),
  ("SearchIcon", "Search"),
  ("PlusIcon", "Add"),
  ("PencilIcon", "Edit"),
  ("EditIcon", "Edit"),
  ("GearIcon", "Settings"),
  ("SettingsIcon", "Settings"),
  ("ChevronLeftIcon", "Go back"),
  ("ChevronRightIcon", "Go forward"),
  ("ArrowLeftIcon", "Go back"),
  ("ArrowRightIcon", "Go forward"),
  ("MinusIcon", "Remove"),
  ("BellIcon", "Notifications"),
  ("UserIcon", "User profile"),
  ("LogoutIcon", "Log out"),
  ("LoginIcon", "Log in"),
  ("EyeIcon", "Show"),
  ("EyeOffIcon", "Hide"),
  ("CheckIcon", "Confirm"),
  ("MailIcon", "Email"),
  ("ExternalLinkIcon", "Open in new tab"),
  ("DotsVerticalIcon", "More options"),
  ("DotsHorizontalIcon", "More options"),
  ("HashIcon", "Go to section"),
  ("Hash", "Go to section"),
  ("SunIcon", "Light mode"),
  ("MoonIcon", "Dark mode"),
  ("TwitterIcon", "Visit Twitter"),
  ("InstagramIcon", "Visit Instagram"),
  ("FacebookIcon", "Visit Facebook"),
  ("LinkedInIcon", "Visit LinkedIn"),
  ("YoutubeIcon", "Visit YouTube"),
  ("GithubIcon", "Visit GitHub")]

/-- What controls with an icon do, by language. -/
def localizedActionLabels : List (String × List (String × String)) := [
  ("pl", [
    ("CartIcon", "Dodaj do koszyka"),
    ("HeartIcon", "Dodaj do ulubionych"),
    ("ShareIcon", "Udostępnij"),
    ("TrashIcon", "Usuń"),
    ("DeleteIcon", "Usuń"),
    ("XIcon", "Zamknij"),
    ("CloseIcon", "Zamknij"),
    ("MenuIcon", "Menu"),
    ("HamburgerIcon", "Menu"),
    ("SearchIcon", "Szukaj"),
    ("TwitterIcon", "Odwiedź Twittera"),
    ("InstagramIcon", "Odwiedź Instagrama"),
    ("FacebookIcon", "Odwiedź Facebooka"),
    ("LinkedInIcon", "Odwiedź LinkedIn"),
    ("GithubIcon", "Odwiedź GitHub")]),
  ("de", [
    ("CartIcon", "In den Warenkorb"),
    ("HeartIcon", "Zu Favoriten hinzufügen"),
    ("ShareIcon", "Teilen"),
    ("TrashIcon", "Löschen"),
    ("DeleteIcon", "Löschen"),
    ("XIcon", "Schließen"),
    ("CloseIcon", "Schließen"),
    ("MenuIcon", "Menü"),
    ("HamburgerIcon", "Menü"),
    ("SearchIcon", "Suchen"),
    ("TwitterIcon", "Twitter besuchen"),
    ("InstagramIcon", "Instagram besuchen")]),
  ("es", [
    ("CartIcon", "Añadir al carrito"),
    ("HeartIcon", "Añadir a favoritos"),
    ("ShareIcon", "Compartir"),
    ("TrashIcon", "Eliminar"),
    ("DeleteIcon", "Eliminar"),
    ("XIcon", "Cerrar"),
    ("CloseIcon", "Cerrar"),
    ("MenuIcon", "Menú"),
    ("SearchIcon", "Buscar"),
    ("TwitterIcon", "Visitar Twitter"),
    ("InstagramIcon", "Visitar Instagram")]),
  ("fr", [
    ("CartIcon", "Ajouter au panier"),
    ("HeartIcon", "Ajouter aux favoris"),
    ("ShareIcon", "Partager"),
    ("TrashIcon", "Supprimer"),
    ("DeleteIcon", "Supprimer"),
    ("XIcon", "Fermer"),
    ("CloseIcon", "Fermer"),
    ("MenuIcon", "Menu"),
    ("SearchIcon", "Rechercher"),
    ("TwitterIcon", "Visiter Twitter"),
    ("InstagramIcon", "Visiter Instagram")])]

/-- Labels of icons that say what they show. -/
def plainLabels : List (String × String) := [
  ("DownloadIcon", "Download"),
  ("UploadIcon", "Upload"),
  ("CopyIcon", "Copy"),
  ("RefreshIcon", "Refresh"),
  ("FilterIcon", "Filter"),
  ("SortIcon", "Sort"),
  ("ExpandIcon", "Expand"),
  ("CollapseIcon", "Collapse"),
  ("PlayIcon", "Play"),
  ("PauseIcon", "Pause"),
  ("StopIcon", "Stop"),
  ("MuteIcon", "Mute"),
  ("VolumeIcon", "Volume"),
  ("LockIcon", "Lock"),
  ("UnlockIcon", "Unlock"),
  ("InfoIcon", "Information"),
  ("HelpIcon", "Help"),
  ("WarningIcon", "Warning"),
  ("SaveIcon", "Save"),
  ("PrintIcon", "Print"),
  ("HomeIcon", "Home"),
  ("CalendarIcon", "Calendar"),
  ("ClockIcon", "Clock"),
  ("MapIcon", "Map"),
  ("PhoneIcon", "Phone"),
  ("SendIcon", "Send"),
  ("AttachIcon", "Attach"),
  ("LinkIcon", "Link"),
  ("MoreIcon", "More options"),
  ("GridIcon", "Grid view"),
  ("ListIcon", "List view"),
  ("StarIcon", "Star")]

/-- Names of the two kinds of controls, by language. -/
def controlLabels : List (String × List (String × String)) := [
  ("en", [
    ("Button", "Button"),
    ("Link", "Link")]),
  ("pl", [
    ("Button", "Przycisk"),
    ("Link", "Link")]),
  ("de", [
    ("Button", "Schaltfläche"),
    ("Link", "Link")]),
  ("es", [
    ("Button", "Botón"),
    ("Link", "Enlace")]),
  ("fr", [
    ("Button", "Bouton"),
    ("Link", "Lien")])]

end JsxAudit.Label
